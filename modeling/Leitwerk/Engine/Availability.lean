import Leitwerk.Engine.Preflight
import Leitwerk.Engine.Patch
/-!
# Preparation while model availability changes

`stable-availability.ts` and the retry around `runModelPreparation` in
`recorder.ts`. An attempt works on the one write set of the decision, in place;
when the availability revision moved meanwhile, `Object.assign` puts a clone of
the baseline over what the attempt left. That overwrites every key the baseline
has and keeps the ones only the attempt added.
-/

namespace Leitwerk.Engine

variable (d : ProcessDefinition) (ctx : Context)

/-! ## One attempt, in place -/

/-- What an attempt leaves of the write set, and why it was refused if it was. -/
structure Attempt where
  writes : Writes
  refused : Option Rejection := none

def Attempt.outcome (a : Attempt) : Except Rejection Writes :=
  match a.refused with
  | none => .ok a.writes
  | some why => .error why

/-- `prepareCreatedTurnStarts` on the write set it is given; a refused start leaves the earlier
ones prepared. -/
def attemptTurnStarts (preflight : Process → TurnStartInput → PreflightVerdict) (next : Process)
    (done : List TurnStartWrite) (w : Writes) : List TurnStartWrite → Attempt
  | [] => { writes := { w with turnStartWrites := done } }
  | .create s :: rest =>
    if s.turnType = .llm then
      match prepareStart (preflight next s) s with
      | .ok prepared => attemptTurnStarts preflight ((selectionPatch prepared.selection).apply next)
          (done ++ [.create prepared.start]) (prepared.write w) rest
      | .error why => { writes := { w with turnStartWrites := done ++ .create s :: rest }, refused := some why }
    else attemptTurnStarts preflight next (done ++ [.create s]) w rest
  | cas :: rest => attemptTurnStarts preflight next (done ++ [cas]) w rest

/-- The last step of an attempt: preflight, in an engine that has one. -/
def attemptPreflight (p : Process) (w : Writes) : Attempt :=
  match ctx.preflight with
  | some preflight => attemptTurnStarts preflight (w.candidate p) [] w w.turnStartWrites
  | none => { writes := w }

/-- `runModelPreparation` on the write set it is given. -/
def attemptModelPreparation (p : Process) (metadata : Option DecisionMetadata) (w : Writes) : Attempt :=
  let candidate := w.candidate p
  if selectionHasNoModel d candidate then attemptPreflight ctx p (writeModelSelection w p none none)
  else if shouldResolveSelection p candidate w metadata then
    match ctx.selectModel candidate w.createdLlmStart with
    | .selected modelProfileId provenance => attemptPreflight ctx p (writeModelSelection w p modelProfileId provenance)
    | .invalid why =>
      if w.createdLlmStart.isSome then { writes := parkInvalidModelConfiguration w candidate why.message }
      else { writes := w, refused := some why }
  else attemptPreflight ctx p w

/-! ## Attempts at a stable revision -/

/-- `Object.assign(writes, structuredClone(baseline))`: a key the baseline lacks is kept. -/
def resetWrites (baseline w : Writes) : Writes :=
  { baseline with
    waitForAdmission := baseline.waitForAdmission.or w.waitForAdmission
    projects := baseline.projects.or w.projects
    workerIntent := baseline.workerIntent.or w.workerIntent }

/-- `evaluateAtStableAvailabilityRevision`, over the snapshots seen after each attempt: the
state the attempts leave, and the value of the one whose revision did not move. -/
def evaluateAtStableAvailabilityRevision {σ α : Type} (evaluate : ModelStatusCacheSnapshot → σ → σ × α)
    (beforeRetry : σ → σ) : List ModelStatusCacheSnapshot → ModelStatusCacheSnapshot → σ → σ × Option α
  | [], _, s => (s, none)
  | current :: later, availability, s =>
    let (s, value) := evaluate availability s
    if current.revision = availability.revision then (s, some value)
    else match later with
      | [] => (s, none)
      | _ :: _ => evaluateAtStableAvailabilityRevision evaluate beforeRetry later current (beforeRetry s)

/-- The snapshot of the attempt whose revision did not move. -/
def stableSnapshot : List ModelStatusCacheSnapshot → ModelStatusCacheSnapshot → Option ModelStatusCacheSnapshot
  | [], _ => none
  | current :: later, availability =>
    if current.revision = availability.revision then some availability else stableSnapshot later current

/-! ## Recording -/

/-- The episodes of the created starts: that of the baseline's start of the same id, else a new one. -/
def accountEpisodes (baseline w : Writes) : Writes :=
  w.mapCreates fun s =>
    { s with automaticRetry :=
        ((baseline.creates.find? (·.id = s.id)).bind (·.automaticRetry)).or (some ⟨s.id, 1, none⟩) }

/-- The write set `record` prepares models for: a decision with its starts deferred and mapped. -/
def baselineWrites (st : Store) (decision : Decision) : Except Rejection Writes := do
  let w := deferTurnWaitStarts d st.process decision.metadata ctx.waitId decision.writes
  let w ← planMappedTurnEntries d ctx st w
  return deferTurnWaitStarts d st.process decision.metadata ctx.waitId w

/-- Commits prepared writes with the episodes of their starts. -/
def commitPrepared (st : Store) (baseline w : Writes) : Except Rejection Store :=
  match commitWrites ctx.now st (accountEpisodes baseline w) with
  | some st' => .ok st'
  | none => reject "record_failed" "Process operation could not be recorded"

/-- How a decision is refused whose availability never settled. -/
def staleEvaluation : Rejection :=
  ⟨"stale_evaluation_snapshot", "Model availability changed repeatedly during start preparation"⟩

/-- What becomes of a decision after its attempts: refused as stale, refused by preparation, or committed. -/
def commitEvaluated (st : Store) (baseline : Writes) : Writes × Option (Option Rejection) → Except Rejection Store
  | (_, none) => .error staleEvaluation
  | (_, some (some why)) => .error why
  | (w, some none) => commitPrepared ctx st baseline w

/-- `record`, with the snapshot it begins with and those it sees after each of its two attempts. -/
def recordStable (models : ModelEnvironment) (availability first second : ModelStatusCacheSnapshot) (st : Store)
    (decision : Decision) : Except Rejection Store := do
  let baseline ← baselineWrites d ctx st decision
  let evaluate (a : ModelStatusCacheSnapshot) (w : Writes) : Writes × Option Rejection :=
    let attempt := attemptModelPreparation d (ctx.at d a models st decision) st.process decision.metadata w
    (attempt.writes, attempt.refused)
  commitEvaluated ctx st baseline
    (evaluateAtStableAvailabilityRevision evaluate (resetWrites baseline) [first, second] availability baseline)

/-- `record` with one preparation, from the baseline, at one snapshot. -/
def recordOnce (models : ModelEnvironment) (availability : ModelStatusCacheSnapshot) (st : Store) (decision : Decision) :
    Except Rejection Store := do
  let baseline ← baselineWrites d ctx st decision
  let w ← runModelPreparation d (ctx.at d availability models st decision) st.process decision.metadata baseline
  commitPrepared ctx st baseline w

/-! ## An attempt and its outcome -/

variable {d : ProcessDefinition} {ctx : Context} {p next : Process} {w : Writes} {metadata : Option DecisionMetadata}
  {pf : Process → TurnStartInput → PreflightVerdict} {done ws : List TurnStartWrite}

theorem attemptTurnStarts_outcome : (attemptTurnStarts pf next done w ws).outcome = prepareTurnStarts pf next done w ws := by
  induction ws generalizing next done w with
  | nil => rfl
  | cons x ws ih =>
    cases x with
    | create s =>
      unfold attemptTurnStarts prepareTurnStarts
      by_cases hty : s.turnType = .llm
      · rw [if_pos hty, if_pos hty]
        cases hp : prepareStart (pf next s) s with
        | error why => rfl
        | ok prepared => exact ih
      · rw [if_neg hty, if_neg hty]
        exact ih
    | casState id kind state retry =>
      unfold attemptTurnStarts prepareTurnStarts
      exact ih

theorem attemptPreflight_outcome (w : Writes) : (attemptPreflight ctx p w).outcome = match ctx.preflight with
    | some preflight => prepareTurnStarts preflight (w.candidate p) [] w w.turnStartWrites
    | none => .ok w := by
  unfold attemptPreflight
  cases ctx.preflight with
  | none => rfl
  | some preflight => exact attemptTurnStarts_outcome

/-- The preparation of `record` is what an attempt comes to. -/
theorem attempt_outcome : (attemptModelPreparation d ctx p metadata w).outcome = runModelPreparation d ctx p metadata w := by
  unfold attemptModelPreparation runModelPreparation
  dsimp only
  split
  · exact attemptPreflight_outcome _
  split
  · cases ctx.selectModel (w.candidate p) w.createdLlmStart with
    | selected id provenance => exact attemptPreflight_outcome _
    | invalid why =>
      dsimp only
      split <;> rfl
  · exact attemptPreflight_outcome w

/-! ## What an attempt leaves behind -/

/-- The keys `resetWrites` may find added. -/
structure SameKeys (w v : Writes) : Prop where
  admission : v.waitForAdmission = w.waitForAdmission
  projects : v.projects = w.projects

theorem SameKeys.trans {u v : Writes} (h : SameKeys w v) (h' : SameKeys v u) : SameKeys w u :=
  ⟨h'.admission.trans h.admission, h'.projects.trans h.projects⟩

theorem sameKeys_apply {α : Type} (w : Writes) (q : Process) (f : Field α) (x : α) :
    SameKeys w (applyProcessPatchField w q f x) := by
  unfold applyProcessPatchField
  split <;> exact ⟨rfl, rfl⟩

theorem sameKeys_modelSelection (w : Writes) (q : Process) (id : Option String)
    (provenance : Option ModelSelectionProvenance) : SameKeys w (writeModelSelection w q id provenance) :=
  ((sameKeys_apply w q _ _).trans (sameKeys_apply _ q _ _)).trans (sameKeys_apply _ q _ _)

theorem sameKeys_attemptTurnStarts : SameKeys w (attemptTurnStarts pf next done w ws).writes := by
  induction ws generalizing next done w with
  | nil => exact ⟨rfl, rfl⟩
  | cons x ws ih =>
    cases x with
    | create s =>
      unfold attemptTurnStarts
      split
      · split
        · rename_i prepared _
          have hwrite : SameKeys w (prepared.write w) := ⟨rfl, rfl⟩
          exact hwrite.trans ih
        · exact ⟨rfl, rfl⟩
      · exact ih
    | casState id kind state retry =>
      unfold attemptTurnStarts
      exact ih

theorem sameKeys_attemptPreflight (w : Writes) : SameKeys w (attemptPreflight ctx p w).writes := by
  unfold attemptPreflight
  split
  · exact sameKeys_attemptTurnStarts
  · exact ⟨rfl, rfl⟩

theorem sameKeys_attempt : SameKeys w (attemptModelPreparation d ctx p metadata w).writes := by
  unfold attemptModelPreparation
  dsimp only
  split
  · exact (sameKeys_modelSelection _ _ _ _).trans (sameKeys_attemptPreflight _)
  split
  · split
    · exact (sameKeys_modelSelection _ _ _ _).trans (sameKeys_attemptPreflight _)
    · rename_i why _
      split
      · have hpark := sameKeys_apply (w.replaceCreate (invalidModelStart (w.candidate p) why.message)) (w.candidate p)
          Field.lifecycleStatus .error
        exact ⟨hpark.admission, hpark.projects⟩
      · exact ⟨rfl, rfl⟩
  · exact sameKeys_attemptPreflight w

end Leitwerk.Engine
