import Leitwerk.Worker.Advance
import Leitwerk.Worker.Branches
/-!
# The reducer refines the core

`step_core`: whatever event arrives in whatever state, the reducer's step is a
`CoreStep` of the cores; `run_core` is the same for whole runs. `handle_throws`
says where the reducer throws.
-/

namespace Leitwerk.Worker

/-! ## Advancing -/

/-- `advance` on a state returns, and its result is a case of `Advanced`. -/
def Advances (f : State → Reduce) (s : State) : Prop :=
  ∃ r, f s = .ok r ∧ Advanced s.core (tracked r.outputs) r.state.core

theorem not_noActiveWork {s : State} (h : ∀ reason exit operation, s.phase ≠ .draining reason exit operation) :
    noActiveWork s = false := by
  unfold noActiveWork
  split
  · exact absurd ‹_› (h _ _ _)
  · rfl

theorem handlesInputs_phase {s : State} (h : handlesInputs s = true) (reason : String) (exit : Bool)
    (operation : Option DrainingOperation) : s.phase ≠ .draining reason exit operation := by
  intro hp
  simp [handlesInputs, hp] at h

theorem tracked_ignored (inputs : List InputItem) :
    tracked (inputs.map fun item => inputConsumedFact item.inputId item.sequence .ignored none) =
      inputs.map fun item => inputConsumedFact item.inputId item.sequence .ignored none := by
  simp [tracked, List.filter_eq_self, inputConsumedFact, Output.tracked]

theorem beginCleanup_core {s : State} {reason : String} {exit : Bool} (hp : s.phase = .draining reason exit none)
    (hd : s.deliveryHeadSequence = none) (hn : s.publication = .none) :
    ∃ r, beginCleanup s reason exit = .ok r ∧ Advanced s.core (tracked r.outputs) r.state.core := by
  unfold beginCleanup
  split
  · rename_i session _
    simp only [beginSnapshot, hasActivePublication, hn]
    exact ⟨_, rfl, .cleanupSnapshot hp hd hn⟩
  · have hs : ({ s with phase := .cleaning reason exit .resources } : State).core =
        { s.core with phase := .cleaning reason exit .resources } := rfl
    exact ⟨_, rfl, hs ▸ .cleanup hp hd hn⟩

theorem startTurn_may {items inputs : List InputItem} {tainted pi start : Bool}
    (h : decideWorkerInputEffect items tainted pi start = .startTurn inputs) : start = true := by
  unfold decideWorkerInputEffect at h
  split at h
  · split at h
    · rename_i hs
      exact (Bool.and_eq_true _ _ ▸ hs).1
    · cases h
  · split at h
    · cases h
    · split at h
      · split at h
        · assumption
        · cases h
      · simp only at h
        split at h <;> cases h

theorem advanceInputs_core {s : State} {start : Bool} (hh : handlesInputs s = true)
    (hstart : start = true → ∃ startId record, s.phase = .active startId record .pending)
    (ih : ∀ t : State, t.inputQueue.length < s.inputQueue.length → Advances advance t) :
    ∃ r, advanceInputs advance s start = .ok r ∧ Advanced s.core (tracked r.outputs) r.state.core := by
  have hrest : Advanced s.core [] s.core := .rest (not_noActiveWork (handlesInputs_phase hh))
  unfold advanceInputs
  split
  · exact ⟨_, rfl, hrest⟩
  · exact ⟨_, rfl, hrest⟩
  · rename_i inputs hd
    obtain ⟨r, hr, ha⟩ := ih _ (consumeIgnored_shrinks hd)
    refine ⟨⟨r.state, (consumeIgnored s inputs).outputs ++ r.outputs⟩, by simp only [hr]; rfl, ?_⟩
    rw [tracked_append]
    have ho : tracked (consumeIgnored s inputs).outputs = (consumeIgnored s.core inputs).outputs :=
      tracked_ignored inputs
    rw [ho]
    exact .ignore hh hd ha
  · rename_i inputs hd
    exact ⟨_, rfl, .deliver hh hd⟩
  · rename_i inputs hd
    split
    · rename_i session startId record status hs hp
      have ht := startTurn_may hd
      subst ht
      obtain ⟨startId', record', hp'⟩ := hstart rfl
      rw [hp] at hp'
      cases hp'
      exact ⟨_, rfl, .execute hh hp hs hd⟩
    · exact ⟨_, rfl, hrest⟩

theorem advanceReady_core {s : State}
    (ih : ∀ t : State, t.inputQueue.length < s.inputQueue.length → Advances advance t) :
    ∃ r, advanceReady advance s = .ok r ∧ Advanced s.core (tracked r.outputs) r.state.core := by
  unfold advanceReady
  split
  · rename_i reason exit operation hp
    split
    · rename_i hw
      unfold noActiveWork at hw
      rw [hp] at hw
      obtain _ | operation := operation
      · simp only [Bool.and_eq_true, Option.isNone_iff_eq_none, beq_iff_eq] at hw
        exact beginCleanup_core hp hw.1 hw.2
      · cases hw
    · rename_i hw
      simp only [Bool.not_eq_true] at hw
      exact ⟨_, rfl, .rest hw⟩
  · rename_i startId record status hp
    have hrest : Advanced s.core [] s.core := .rest (not_noActiveWork (by simp [hp]))
    split
    · exact ⟨_, rfl, hrest⟩
    · rename_i hq
      simp only [Bool.or_eq_true, not_or, Bool.not_eq_true, Option.isSome_eq_false_iff] at hq
      refine advanceInputs_core ?_ ?_ ih
      · simpa [handlesInputs, hp, hasActivePublication] using hq
      · intro hst
        have hst : status = .pending := by simpa using hst
        exact ⟨startId, record, hst ▸ hp⟩
  · rename_i startId proposed hp
    have hrest : Advanced s.core [] s.core := .rest (not_noActiveWork (by simp [hp]))
    split
    · exact ⟨_, rfl, hrest⟩
    · rename_i hq
      simp only [Bool.or_eq_true, not_or, Bool.not_eq_true, Option.isSome_eq_false_iff] at hq
      split
      · exact ⟨_, rfl, hrest⟩
      · rename_i hk
        refine advanceInputs_core ?_ (by simp) ih
        cases hs : s.session with
        | none => simpa [handlesInputs, hp, hasActivePublication, hs] using hq
        | some session =>
          cases hkind : session.kind with
          | llm => simp [hs, hkind] at hk
          | automatic => simpa [handlesInputs, hp, hasActivePublication, hs, hkind] using hq
  · rename_i hd _ _
    exact ⟨_, rfl, .rest (not_noActiveWork hd)⟩

/-- `finishReadying` waits, activates, or reports that the turn could start. -/
theorem finishReadying_cases (s : State) :
    finishReadying s = ⟨s, []⟩ ∨
      (∃ startId proposed record session, s.phase = .readying startId proposed (some record) ∧
        s.publication = .none ∧ s.session = some session ∧
        tracked (finishReadying s).outputs = [.command (.activate startId record session)] ∧
        (finishReadying s).state.core = { s.core with phase := .activating startId record }) ∨
      ∃ startId proposed accepted, s.phase = .readying startId proposed accepted ∧ s.publication = .none ∧
        tracked (finishReadying s).outputs = [] ∧
        (finishReadying s).state.core = { s.core with phase := .waitingForAcceptance startId proposed } := by
  unfold finishReadying
  split
  · rename_i startId proposed accepted hp
    split
    · exact .inl rfl
    · rename_i hq
      simp only [Bool.or_eq_true, not_or, Bool.not_eq_true] at hq
      have hn : s.publication = .none := by simpa [hasActivePublication] using hq.2
      split
      · rename_i record hacc
        have hacc : accepted = some record := (Option.filter_eq_some_iff.1 hacc).1
        cases hs : s.session with
        | none =>
          left
          simp only [beginActivation, hs]
        | some session =>
          refine .inr (.inl ⟨startId, proposed, record, session, hacc ▸ hp, hn, rfl, ?_⟩)
          exact beginActivation_core _ _ hs
      · exact .inr (.inr ⟨startId, proposed, accepted, hp, hn, rfl, rfl⟩)
  · exact .inl rfl

theorem advance_core (s : State) : Advances advance s := by
  induction hn : s.inputQueue.length using Nat.strongRecOn generalizing s with
  | _ n ih =>
    have ih' : ∀ t : State, t.inputQueue.length < (finishReadying s).state.inputQueue.length → Advances advance t := by
      intro t ht
      rw [finishReadying_queue, hn] at ht
      exact ih _ ht t rfl
    obtain ⟨r, hr, ha⟩ := advanceReady_core ih'
    refine ⟨⟨r.state, (finishReadying s).outputs ++ r.outputs⟩, by rw [advance_eq]; simp only [hr]; rfl, ?_⟩
    rw [tracked_append]
    rcases finishReadying_cases s with h | ⟨startId, proposed, record, session, hp, hn, hs, ho, hst⟩ |
        ⟨startId, proposed, accepted, hp, hn, ho, hst⟩
    · rw [h] at ha ⊢
      simpa using ha
    · have hphase : (finishReadying s).state.phase = .activating startId record := by
        rw [← core_phase, hst]
      have hquiet : r = ⟨(finishReadying s).state, []⟩ := by
        unfold advanceReady at hr
        simp only [hphase] at hr
        cases hr
        rfl
      rw [ho, hquiet, hst]
      exact .activate hp hn hs
    · rw [hst] at ha
      rw [ho]
      exact .ready hp hn ha

/-! ## Where the reducer throws -/

theorem bind_error {α β : Type} {x : Except String α} {f : α → Except String β} {m : String}
    (h : x >>= f = .error m) : x = .error m ∨ ∃ a, x = .ok a ∧ f a = .error m := by
  cases x with
  | error e => exact .inl (by cases h; rfl)
  | ok a => exact .inr ⟨a, rfl, h⟩

theorem beginSnapshot_error {s : State} {publication : Publication} {source : SnapshotSource} {m : String}
    (h : beginSnapshot s publication source = .error m) : s.publication ≠ .none := by
  unfold beginSnapshot at h
  split at h
  · rename_i hp
    simpa [hasActivePublication] using hp
  · cases h

theorem failure_never_throws (s : State) (failure : WorkerFailure) {m : String}
    (h : failureOutputs s failure = .error m) : False := by
  obtain ⟨r, hr⟩ := failureOutputs_ok s failure
  rw [hr] at h
  cases h

theorem onBootstrapSucceeded_error {s : State} {startId : String} {completion : WorkerBootstrapCompletion}
    {m : String} (h : onBootstrapSucceeded s startId completion = .error m) :
    Throws s (.bootstrapSucceeded startId completion) := by
  unfold onBootstrapSucceeded at h
  cases hm : matchesBootstrap s startId with
  | false =>
    simp only [hm] at h
    cases h
  | true =>
    simp only [hm] at h
    unfold matchesBootstrap at hm
    split at hm
    · rename_i id proposed hp
      simp only [beq_iff_eq] at hm
      subst hm
      simp only [hp] at h
      rcases bind_error h with hr | ⟨ready, _, h⟩
      · unfold beginReadySnapshot at hr
        split at hr
        · rename_i hpol
          refine ⟨⟨proposed, hp⟩, ?_, beginSnapshot_error (s := bootstrapped s id completion) hr⟩
          cases hk : completion.session.kind with
          | llm => rfl
          | automatic => simp [hk, resolveWorkerSnapshotPolicy] at hpol
        · cases hr
      · cases h
    · rename_i reason exit id proposed hp
      simp only [hp] at h
      cases h
    · cases hm

theorem failedTerminal_ok (s : State) (failure : TurnExecutionFailure) :
    ∃ pending, failedTerminal s failure = .ok pending := ⟨_, rfl⟩

theorem publishTerminal_error {s next : State} {point : SnapshotPoint} {record : String}
    {pending : PendingTerminal} {m : String} (hpoint : point ≠ .beforeCleanupCompleted)
    (h : publishTerminal s next point record pending = .error m) :
    s.session.map (·.kind) = some .llm ∧ next.publication ≠ .none := by
  unfold publishTerminal at h
  split at h
  · cases h
  · rename_i session hs
    split at h
    · cases h
    · rename_i hk
      split at h
      · exact ⟨by simp [hs, hk], beginSnapshot_error h⟩
      · rename_i hpol
        simp [resolveWorkerSnapshotPolicy, hk, hpoint] at hpol

theorem onTurnCompleted_error {s : State} {record : String} {result : SelectedTurnExecutionResult} {m : String}
    (h : onTurnCompleted s record result = .error m) : Throws s (.turnCompleted record result) := by
  have hpub : (turnDone s result).state.publication = s.publication := by
    unfold turnDone finishDrainingOperation
    split <;> rfl
  unfold onTurnCompleted at h
  cases hm : matchesTurn s record with
  | false =>
    simp only [hm] at h
    cases h
  | true =>
    simp only [hm] at h
    cases hres : result.result with
    | parked reason =>
      simp only [hres] at h
      cases h
    | outcome turnId outcome params info =>
      simp only [hres] at h
      rcases bind_error h with hp | ⟨published, _, h⟩
      · obtain ⟨hk, hn⟩ := publishTerminal_error (by decide) hp
        exact ⟨hm, by simp [hres], hk, hpub ▸ hn⟩
      · cases h
    | failed failure =>
      simp only [hres] at h
      rcases bind_error h with hf | ⟨pending, _, h⟩
      · cases hf
      · rcases bind_error h with hp | ⟨published, _, h⟩
        · obtain ⟨hk, hn⟩ := publishTerminal_error (by decide) hp
          exact ⟨hm, by simp [hres], hk, hpub ▸ hn⟩
        · cases h

theorem cleanResources_error {s : State} {publication : Publication} {thrown m : String}
    (h : cleanResources s publication thrown = .error m) :
    ∀ reason exit, s.phase ≠ .cleaning reason exit .publication := by
  intro reason exit hp
  unfold cleanResources at h
  rw [hp] at h
  cases h

theorem onSnapshotCompleted_error (s : State) (point : SnapshotPoint) (record : Option String)
    (error : Option Thrown) {m : String} (h : onSnapshotCompleted s point record error = .error m) :
    snapshotMatches s point record = true ∧
      (s.publication = .cleanupSnapshot ∨ ∃ fatal, s.publication = .fatalSnapshot fatal .cleanup) ∧
      ∀ reason exit, s.phase ≠ .cleaning reason exit .publication := by
  unfold onSnapshotCompleted at h
  cases hm : snapshotMatches s point record with
  | false =>
    simp only [hm] at h
    cases h
  | true =>
    refine ⟨rfl, ?_⟩
    rw [hm, if_neg (by simp)] at h
    simp only at h
    cases hp : s.publication with
    | terminalSnapshot point' record' terminal =>
      simp only [hp] at h
      cases error with
      | none => cases h
      | some error => exact (failure_never_throws _ _ h).elim
    | cleanupSnapshot =>
      simp only [hp] at h
      split at h
      · exact (failure_never_throws _ _ h).elim
      · exact ⟨.inl rfl, cleanResources_error h⟩
    | fatalSnapshot fatal after =>
      simp only [hp] at h
      cases after with
      | exit => cases h
      | cleanup => exact ⟨.inr ⟨fatal, rfl⟩, cleanResources_error h⟩
    | _ =>
      simp only [hp] at h
      cases h

/-- The reducer throws only where `Throws` says. -/
theorem handle_throws {s : State} {e : Event} {m : String} (h : handle s e = .error m) : Throws s e := by
  cases e with
  | bootstrapSucceeded startId completion => exact onBootstrapSucceeded_error h
  | turnCompleted record result => exact onTurnCompleted_error h
  | snapshotSucceeded point record => exact onSnapshotCompleted_error s point record none h
  | snapshotFailed point record error => exact onSnapshotCompleted_error s point record (some error) h
  | transportFailed error => exact (failure_never_throws s (.transport error) h).elim
  | invariantFailed error =>
    exact (failure_never_throws s (.dispatch error (currentStateName s) (failureContext s)) h).elim
  | bootstrapFailed startId error payload =>
    simp only [handle, onBootstrapFailed] at h
    split at h
    · cases h
    · split at h
      · cases h
      · exact (failure_never_throws _ _ h).elim
  | activationFailed startId record error =>
    simp only [handle, onOperationFailed] at h
    split at h
    · cases h
    · split at h
      · cases h
      · exact (failure_never_throws _ _ h).elim
  | turnDefect record error =>
    simp only [handle, onOperationFailed] at h
    split at h
    · cases h
    · split at h
      · cases h
      · exact (failure_never_throws _ _ h).elim
  | inputDeliveryFailed headSequence error =>
    simp only [handle, onInputDeliveryFailed] at h
    split at h
    · cases h
    · split at h
      · cases h
      · exact (failure_never_throws _ _ h).elim
  | cleanupFailed error =>
    simp only [handle, onCleanupFailed] at h
    split at h
    · exact (failure_never_throws _ _ h).elim
    · cases h
  | _ => cases h

theorem throws_core {s : State} {e : Event} : Throws s.core e ↔ Throws s e := by
  cases e <;> exact Iff.rfl

/-! ## A step -/

theorem reduce_ok {s : State} {e : Event} {r : Reduction} (hx : ¬(s.phase = .exited ∧ e ≠ .runtimeStarted))
    (h : handle s e = .ok r) :
    ∃ a, advance r.state = .ok a ∧ reduceWorkerRuntime s e =
      .ok ⟨a.state, r.outputs ++ a.outputs ++ reportedTransition s a.state e⟩ := by
  obtain ⟨a, ha, _⟩ := advance_core r.state
  refine ⟨a, ha, ?_⟩
  unfold reduceWorkerRuntime
  rw [if_neg (by simpa using hx)]
  rw [h]
  simp only [bind, Except.bind, ha]
  rfl

/-- An exited worker does not advance. -/
theorem advanced_exits {s t : State} {os : List Output} (hp : s.phase = .exited) (h : Advanced s os t) : os = [] ∧ t = s := by
  cases h with
  | rest _ => exact ⟨rfl, rfl⟩
  | activate hn _ _ => rw [hp] at hn; cases hn
  | ready hn _ _ => rw [hp] at hn; cases hn
  | cleanupSnapshot hn _ _ => rw [hp] at hn; cases hn
  | cleanup hn _ _ => rw [hp] at hn; cases hn
  | ignore hh _ _ => simp [handlesInputs, hp] at hh
  | deliver hh _ => simp [handlesInputs, hp] at hh
  | execute _ hn _ _ => rw [hp] at hn; cases hn

theorem tracked_reported (s t : State) (e : Event) : tracked (reportedTransition s t e) = [] := by
  unfold reportedTransition
  simp only
  split <;> rfl

/-- Every step of the reducer is a step of the core. -/
theorem step_core {s t : State} {e : Event} {os : List Output} (h : WorkerStep s e os t) :
    CoreStep s.core e (tracked os) t.core := by
  unfold WorkerStep step at h
  by_cases hx : s.phase = .exited ∧ e ≠ .runtimeStarted
  · unfold reduceWorkerRuntime at h
    rw [if_pos (by simpa using hx)] at h
    cases h
    exact .exited hx.1
  cases hh : handle s e with
  | error m =>
    have : reduceWorkerRuntime s e = .error m := by
      unfold reduceWorkerRuntime
      rw [if_neg (by simpa using hx), hh]
      rfl
    rw [this] at h
    cases h
    by_cases hp : s.phase = .exited
    · exact .exited hp
    · exact .thrown hp (throws_core.2 (handle_throws hh))
  | ok r =>
    obtain ⟨a, ha, hr⟩ := reduce_ok hx hh
    rw [hr] at h
    cases h
    obtain ⟨a', ha', hadv⟩ := advance_core r.state
    rw [ha] at ha'
    cases ha'
    simp only [tracked_append, tracked_reported, List.append_nil]
    by_cases hp : s.phase = .exited
    · have he : e = .runtimeStarted := by
        by_contra hne
        exact hx ⟨hp, hne⟩
      subst he
      have hr : r = ⟨s, []⟩ := by
        simp only [handle, onRuntimeStarted, hp, Except.ok.injEq] at hh
        exact hh.symm
      subst hr
      obtain ⟨ho, hs⟩ := advanced_exits (show s.core.phase = .exited from hp) hadv
      rw [ho, hs]
      exact .exited hp
    rcases handle_branch hh with ⟨hi, ho, hs⟩ | hb
    · rw [ho]
      rw [hs] at hadv
      exact .ignored hp hi hadv
    · exact .handled hp hb hadv

/-- The core as a machine. -/
def CoreMachine : Runs.Step State Event Output := fun s e os t => CoreStep s e os t

/-- The history of a run with only its tracked outputs. -/
def trackedHist (h : Runs.Hist Event Output) : Runs.Hist Event Output := h.map fun x => (x.1, tracked x.2)

/-- Every run of the worker is a run of the core. -/
theorem run_core {s t : State} {h : Runs.Hist Event Output} (hr : Runs.Run WorkerStep s h t) :
    Runs.Run CoreMachine s.core (trackedHist h) t.core :=
  hr.map State.core tracked fun _ _ _ _ => step_core

theorem emitted_trackedHist (h : Runs.Hist Event Output) :
    Runs.emitted (trackedHist h) = tracked (Runs.emitted h) := by
  induction h with
  | nil => rfl
  | cons x h ih => simpa [trackedHist, Runs.emitted] using ih

theorem events_trackedHist (h : Runs.Hist Event Output) : Runs.events (trackedHist h) = Runs.events h := by
  simp [trackedHist, Runs.events, Function.comp_def]

/-- What a function finds only in tracked outputs, it finds in all outputs alike. -/
theorem filterMap_tracked {α : Type} {f : Output → Option α} (hf : ∀ o, o.tracked = false → f o = none)
    (os : List Output) : (tracked os).filterMap f = os.filterMap f := by
  induction os with
  | nil => rfl
  | cons o os ih =>
    rw [tracked_cons, List.filterMap_append, ih, List.filterMap_cons]
    cases ht : o.tracked with
    | false => simp [hf o ht]
    | true => cases hfo : f o <;> simp [hfo]

/-! ## Computed runs -/

/-- The history of a worker that meets these events. -/
def workerHistory (es : List Event) : Runs.Hist Event Output :=
  Runs.play (fun s e => (step s e).state) (fun s e => (step s e).outputs) createInitialWorkerRuntimeState es

/-- The state of a worker that met these events. -/
def workerState (es : List Event) : State :=
  es.foldl (fun s e => (step s e).state) createInitialWorkerRuntimeState

theorem worker_run (es : List Event) :
    Runs.Run WorkerStep createInitialWorkerRuntimeState (workerHistory es) (workerState es) :=
  Runs.run_play (fun s e => (step s e).state) (fun s e => (step s e).outputs) (fun _ _ => rfl) _ es

/-- The same where every step meets `ok`. -/
theorem worker_run_guarded (ok : State → Event → Bool) (es : List Event)
    (h : Runs.allOk (fun s e => (step s e).state) ok createInitialWorkerRuntimeState es = true) :
    Runs.Run (Runs.Guard WorkerStep fun s e => ok s e = true) createInitialWorkerRuntimeState
      (workerHistory es) (workerState es) :=
  Runs.run_guarded (fun s e => (step s e).state) (fun s e => (step s e).outputs) (fun _ _ => rfl) h

/-- A start, for the examples. -/
def demoStart : WorkerStartPayload where
  startRecordId := "start"
  proposedTurnRecordId := "turn"
  bootstrapKind := .llm
  primaryTreeFile := "tree.jsonl"
  selectedTurnId := some "build"

/-- The completion of its bootstrap, for a session that runs its turn so, of a process in this status. -/
def demoBootstrap (runtime : SessionRuntime) (status : LifecycleStatus) : WorkerBootstrapCompletion where
  session :=
    { runtime := runtime, selectedTurnId := "build", proposedTurnRecordId := "turn",
      acceptedTurnRecordId := none, processSnapshot := { lifecycleStatus := status },
      treeFile := "tree.jsonl", workspaceRoot := "/workspace", heartbeatIntervalMs := 1000 }
  pendingInputs := []
  readyPayload := "{}"
  credentialRefresh := none
  diagnostics := []

/-- A worker that started, bootstrapped and waits for the acceptance of its turn. -/
def demoReady (runtime : SessionRuntime) (status : LifecycleStatus) : List Event :=
  [.runtimeStarted, .serverMessage (.start demoStart),
    .bootstrapSucceeded "start" (demoBootstrap runtime status),
    .snapshotSucceeded .afterWorkerReady none]

/-- The same worker after its turn was accepted; its activation runs. -/
def demoActivating (runtime : SessionRuntime) (status : LifecycleStatus) : List Event :=
  demoReady runtime status ++ [.serverMessage (.turnStartAccepted "start" "turn")]

/-- The same worker while it executes its turn. -/
def demoExecuting (runtime : SessionRuntime) (status : LifecycleStatus) : List Event :=
  demoActivating runtime status ++ [.activationSucceeded "start" "turn" []]

/-- An error that a command of the worker may end in. -/
def demoError : Thrown := .other true (some "boom") "Error: boom" none none { causes := [] }

/-- The outcome of that turn. -/
def demoOutcome : SelectedTurnExecutionResult where
  result := .outcome "build" "done" "{}"
    { turnRecordId := "turn", turnType := .llm, pathType := .primary, forkPiEntryId := none,
      resultPiEntryId := none, turnResultMarkdown := none, resultSummary := none, rootEntryId := none }
  appliedTargetedInputs := []

end Leitwerk.Worker
