import Leitwerk.Worker.Execution
/-!
# The credential refresh loop

While its credentials are refreshed a worker samples them, sends what changed
to the server, or waits for the poll timer, one after the other.
`RefreshStep` is the worker together with what the loop has under way outside
the reducer: samples and updates without an answer, and the armed timer. An
answer arrives for something under way and takes it away; the timer fires only
while it is armed; every other event may arrive at any time.

Most branches of the reducer leave the loop alone (`Quiet`). The six that do
not keep its state and what is under way in step (`LoopInv`), so that a loop
that goes on never waits for nothing and never for two things
(`credential_loop_alive`).
-/

namespace Leitwerk.Worker

open Results (ok_of_step)
open Runs

/-! ## What the loop has under way -/

/-- What an output does to the loop. -/
inductive LoopCommand where
  | sample (providerId : String)
  | update (providerId : String)
  | arm (correlation : String)
  | cancel
  deriving DecidableEq

/-- The outputs that concern the loop. -/
def Output.loop? : Output → Option LoopCommand
  | .command (.sampleCredentials descriptor _) => some (.sample descriptor.providerId)
  | .fact (.credentialUpdate providerId _ _) => some (.update providerId)
  | .command (.armTimer .credentialPoll _ correlation) => some (.arm correlation)
  | .command (.cancelTimer .credentialPoll) => some .cancel
  | _ => none

/-- What a list of outputs does to the loop, in order. -/
def loops (os : List Output) : List LoopCommand := os.filterMap (·.loop?)

@[simp] theorem loops_nil : loops [] = [] := rfl
@[simp] theorem loops_append (a b : List Output) : loops (a ++ b) = loops a ++ loops b := by simp [loops]
@[simp] theorem loops_cons (o : Output) (os : List Output) : loops (o :: os) = o.loop?.toList ++ loops os := by
  cases h : o.loop? <;> simp [loops, h]

/-- The samples and the updates without an answer, by their providers, and the
correlation of the poll timer while it is armed. -/
structure Refresh where
  samples : List String := []
  updates : List String := []
  poll : Option String := none
  deriving DecidableEq

/-- A command of the reducer puts something under way, or cancels the timer. -/
def Refresh.issue (r : Refresh) : LoopCommand → Refresh
  | .sample providerId => { r with samples := r.samples ++ [providerId] }
  | .update providerId => { r with updates := r.updates ++ [providerId] }
  | .arm correlation => { r with poll := some correlation }
  | .cancel => { r with poll := none }

/-- An answer takes what it answers away, and a timer that fires is armed no more. -/
def Refresh.meet (r : Refresh) : Event → Refresh
  | .credentialSampled providerId _ _ | .credentialSampleFailed providerId _ =>
    { r with samples := r.samples.erase providerId }
  | .serverMessage (.credentialUpdateAccepted providerId _ _ _) =>
    { r with updates := r.updates.erase providerId }
  | .timerFired .credentialPoll _ => { r with poll := none }
  | _ => r

/-- An answer needs something it answers; the poll timer fires only while armed. -/
def Refresh.admits (r : Refresh) : Event → Bool
  | .credentialSampled providerId _ _ | .credentialSampleFailed providerId _ => r.samples.contains providerId
  | .serverMessage (.credentialUpdateAccepted providerId _ _ _) => r.updates.contains providerId
  | .timerFired .credentialPoll correlation => r.poll == some correlation
  | _ => true

/-- The worker and what its credential loop has under way. -/
structure RefreshEnv where
  state : State
  refresh : Refresh

/-- A worker that has not started. -/
def RefreshEnv.init : RefreshEnv := ⟨createInitialWorkerRuntimeState, {}⟩

/-- The worker after an event, with what is under way then. -/
def RefreshEnv.next (x : RefreshEnv) (e : Event) : RefreshEnv :=
  ⟨(step x.state e).state, (loops (step x.state e).outputs).foldl Refresh.issue (x.refresh.meet e)⟩

/-- A step of the worker with its loop, whether or not the event can arrive. -/
def RefreshMove : Step RefreshEnv Event Output := fun x e os y =>
  WorkerStep x.state e os y.state ∧ y.refresh = (loops os).foldl Refresh.issue (x.refresh.meet e)

/-- The worker with its loop: answers and the timer arrive only for what is under way. -/
def RefreshStep : Step RefreshEnv Event Output := Guard RefreshMove fun x e => x.refresh.admits e = true

/-- The loop goes on: one sample, one update or the armed timer is under way, and nothing else. -/
def Refresh.Alive (r : Refresh) : Prop :=
  (∃ providerId, r = ⟨[providerId], [], none⟩) ∨ (∃ providerId, r = ⟨[], [providerId], none⟩) ∨
    ∃ correlation, r = ⟨[], [], some correlation⟩

/-! ## The phases, in their order -/

/-- Before the session is there, at work, stopping, and gone. -/
def Phase.stage : Phase → Nat
  | .init | .waitingForStart | .bootstrapping _ _ => 0
  | .readying _ _ _ | .waitingForAcceptance _ _ | .activating _ _ | .active _ _ _ => 1
  | .draining _ _ _ | .cleaning _ _ _ => 2
  | .exited => 3

/-- A worker that has not been asked to stop and has not failed. -/
def Phase.working (p : Phase) : Bool := p.stage ≤ 1

/-! ## The branches that leave the loop alone -/

/-- A branch that does nothing to the loop, and leaves its stage only for good. -/
structure Quiet (s : State) (r : Reduction) : Prop where
  credential : r.state.credential = s.credential
  poll : r.state.timers.credentialPoll = s.timers.credentialPoll
  silent : loops r.outputs = []
  stage : r.state.phase.stage = s.phase.stage ∨ r.state.phase = .exited

theorem stage_three {p : Phase} (h : p.stage = 3) : p = .exited := by
  cases p <;> simp [Phase.stage] at h ⊢

theorem Quiet.refl (s : State) : Quiet s ⟨s, []⟩ := ⟨rfl, rfl, rfl, Or.inl rfl⟩

theorem Quiet.trans {s : State} {r r' : Reduction} (h : Quiet s r) (h' : Quiet r.state r') :
    Quiet s ⟨r'.state, r.outputs ++ r'.outputs⟩ where
  credential := h'.credential.trans h.credential
  poll := h'.poll.trans h.poll
  silent := by rw [loops_append, h.silent, h'.silent]; rfl
  stage := by
    rcases h'.stage with h' | h'
    · rcases h.stage with h | h
      · exact .inl (h'.trans h)
      · rw [h] at h'
        exact .inr (stage_three h')
    · exact .inr h'

/-- Outputs that say nothing of the loop may be added. -/
theorem Quiet.add {s : State} {r : Reduction} {before after : List Output} (h : Quiet s r)
    (hb : loops before = []) (ha : loops after = []) : Quiet s ⟨r.state, before ++ r.outputs ++ after⟩ where
  credential := h.credential
  poll := h.poll
  silent := by rw [loops_append, loops_append, hb, h.silent, ha]; rfl
  stage := h.stage

theorem loops_eq_nil {os : List Output} (h : ∀ o ∈ os, o.loop? = none) : loops os = [] :=
  List.filterMap_eq_nil_iff.2 h

theorem loops_said (disposition : FailureDisposition) :
    loops ((disposition.diagnostic.toList.map fun d => Output.diagnostic d none) ++
      if disposition.stderrMessage.isEmpty then [] else [.stderr disposition.stderrMessage]) = [] := by
  refine loops_eq_nil fun o ho => ?_
  rcases List.mem_append.1 ho with ho | ho
  · obtain ⟨d, _, rfl⟩ := List.mem_map.1 ho
    rfl
  · split at ho
    · cases ho
    · rw [List.mem_singleton.1 ho]
      rfl

theorem beginSnapshot_quiet {s : State} {publication : Publication} {source : SnapshotSource} {r : Reduction}
    (h : beginSnapshot s publication source = .ok r) : Quiet s r := by
  obtain ⟨_, hs, ho⟩ := beginSnapshot_ok h
  refine ⟨by rw [hs], by rw [hs], ?_, Or.inl (by rw [hs])⟩
  rw [ho]
  refine loops_eq_nil fun o ho => ?_
  obtain ⟨snapshot, _, rfl⟩ := List.mem_map.1 ho
  rfl

theorem finishFatal_quiet (s : State) (fatal : PendingFatal) : Quiet s (finishFatal s fatal) := by
  refine ⟨rfl, rfl, loops_eq_nil fun o ho => ?_, Or.inr rfl⟩
  simp only [finishFatal, List.cons_append, List.nil_append, List.mem_cons, List.mem_map] at ho
  rcases ho with rfl | rfl | ⟨_, _, rfl⟩ <;> rfl

theorem failureOutputs_quiet {s : State} {failure : WorkerFailure} {r : Reduction}
    (h : failureOutputs s failure = .ok r) : Quiet s r := by
  have hsaid := loops_said (normalizeWorkerFailure failure)
  unfold failureOutputs at h
  simp only at h
  split at h
  · cases h
    exact ⟨rfl, rfl, by rw [loops_append, hsaid]; rfl, Or.inl rfl⟩
  · cases h
    exact ⟨rfl, rfl, by rw [loops_append, hsaid]; rfl, Or.inl rfl⟩
  · split at h
    · obtain ⟨begun, hb, h⟩ := ok_of_step h
      cases h
      simpa using (beginSnapshot_quiet hb).add hsaid loops_nil
    · cases h
      simpa using (finishFatal_quiet s _).add hsaid loops_nil
  · cases h
    exact ⟨rfl, rfl, by rw [loops_append, hsaid]; rfl, Or.inr rfl⟩

theorem publish_quiet (s : State) (terminal : PendingTerminal) :
    Quiet s (publishTerminalAndAwaitAcknowledgement s terminal) := by
  refine ⟨rfl, rfl, ?_, Or.inl rfl⟩
  cases hp : terminal.park <;> simp [publishTerminalAndAwaitAcknowledgement, armTimer, hp, Output.loop?]

theorem loops_consumed {os : List Output}
    (h : ∀ o ∈ os, ∃ id sequence mode info, o = inputConsumedFact id sequence mode info) : loops os = [] := by
  refine loops_eq_nil fun o ho => ?_
  obtain ⟨_, _, _, _, rfl⟩ := h o ho
  rfl

theorem removeAppliedTargeted_quiet (s : State) (applied : List AppliedTargetedInput) :
    Quiet s (removeAppliedTargeted s applied) :=
  ⟨rfl, rfl, loops_consumed (removeApplied_outputs _ _ _), Or.inl rfl⟩

theorem finishDrainingOperation_quiet (s : State) : Quiet s ⟨finishDrainingOperation s, []⟩ := by
  unfold finishDrainingOperation
  split
  · rename_i hp
    exact ⟨rfl, rfl, rfl, .inl (by simp [hp, Phase.stage])⟩
  · exact .refl s

theorem turnDone_quiet (s : State) (result : SelectedTurnExecutionResult) : Quiet s (turnDone s result) := by
  have hd := (finishDrainingOperation_quiet s).trans (removeAppliedTargeted_quiet _ result.appliedTargetedInputs)
  have hc : Quiet (removeAppliedTargeted (finishDrainingOperation s) result.appliedTargetedInputs).state
      ⟨(turnDone s result).state, []⟩ := by
    refine ⟨rfl, rfl, rfl, .inl ?_⟩
    simp only [turnDone]
    cases (removeAppliedTargeted (finishDrainingOperation s) result.appliedTargetedInputs).state.phase <;>
      simp [completedPhase, Phase.stage]
  have hq := hd.trans hc
  exact ⟨hq.credential, hq.poll, hd.silent, hq.stage⟩

theorem beginActivation_quiet {s : State} (startId record : String) (hp : s.phase.stage = 1) :
    Quiet s (beginActivation s startId record) := by
  unfold beginActivation
  split
  · exact .refl s
  · exact ⟨rfl, rfl, rfl, .inl hp.symm⟩

theorem onRuntimeStarted_quiet (s : State) : Quiet s (onRuntimeStarted s) := by
  unfold onRuntimeStarted
  split
  · rename_i hp
    exact ⟨rfl, rfl, rfl, .inl (by simp [hp, Phase.stage])⟩
  · exact .refl s

theorem onTransportConnected_quiet (s : State) : Quiet s (onTransportConnected s) := by
  have hg : loops (([.fact hello, .fact (.bootstrapProgress "worker_connected")] : List Output) ++
      s.session.toList.map (heartbeatFact s)) = [] := by
    cases s.session <;> rfl
  unfold onTransportConnected
  split
  · rename_i terminal _
    simpa using (publish_quiet s terminal).add hg loops_nil
  · exact ⟨rfl, rfl, hg, Or.inl rfl⟩

theorem onSessionTainted_quiet (s : State) (reason : String) : Quiet s (onSessionTainted s reason) := by
  unfold onSessionTainted
  split
  · exact .refl s
  · exact ⟨rfl, rfl, rfl, Or.inl rfl⟩

theorem onWorkerStart_quiet (s : State) (payload : WorkerStartPayload) : Quiet s (onWorkerStart s payload) := by
  unfold onWorkerStart
  split
  · rename_i hp
    exact ⟨rfl, rfl, rfl, .inl (by simp [hp, Phase.stage])⟩
  · exact .refl s

theorem onInputBatch_quiet (s : State) (inputs : List InputDelivery) : Quiet s (onInputBatch s inputs) := by
  unfold onInputBatch
  split <;> exact ⟨rfl, rfl, rfl, Or.inl rfl⟩

theorem onTurnStartAccepted_quiet (s : State) (startId record : String) :
    Quiet s (onTurnStartAccepted s startId record) := by
  unfold onTurnStartAccepted
  split
  · rename_i hp
    split
    · exact ⟨rfl, rfl, rfl, .inl (by simp [hp, Phase.stage])⟩
    · exact .refl s
  · rename_i hp
    split
    · exact beginActivation_quiet _ _ (by simp [hp, Phase.stage])
    · exact .refl s
  · exact .refl s

theorem onTurnTerminalRecorded_quiet (s : State) (record : String) : Quiet s (onTurnTerminalRecorded s record) := by
  unfold onTurnTerminalRecorded
  split
  · split
    · exact ⟨rfl, rfl, rfl, Or.inl rfl⟩
    · exact .refl s
  · exact .refl s

theorem onBootstrapFailed_quiet {s : State} {startId : String} {error : Thrown} {payload : WorkerStartPayload}
    {r : Reduction} (h : onBootstrapFailed s startId error payload = .ok r) : Quiet s r := by
  unfold onBootstrapFailed at h
  split at h
  · cases h
    exact .refl s
  · split at h
    · cases h
      exact finishDrainingOperation_quiet s
    · exact failureOutputs_quiet h

theorem onActivationSucceeded_quiet (s : State) (startId record : String) (diagnostics : List String) :
    Quiet s (onActivationSucceeded s startId record diagnostics) := by
  unfold onActivationSucceeded
  split
  · exact .refl s
  · rename_i hm
    refine ⟨rfl, rfl, ?_, ?_⟩
    · rw [loops_append]
      have hd : loops (bootstrapDiagnostics diagnostics) = [] := loops_eq_nil fun o ho => by
        obtain ⟨_, _, rfl⟩ := List.mem_map.1 ho
        rfl
      rw [hd]
      unfold handleReady
      split
      · rfl
      · rfl
      · split <;> rfl
    · unfold matchesActivation at hm
      cases hp : s.phase <;> simp_all [Phase.stage]

theorem onOperationFailed_quiet {s : State} {matched : Bool} {error : Thrown} {r : Reduction}
    (h : onOperationFailed s matched error = .ok r) : Quiet s r := by
  unfold onOperationFailed at h
  split at h
  · cases h
    exact .refl s
  · split at h
    · cases h
      exact finishDrainingOperation_quiet s
    · exact failureOutputs_quiet h

theorem onInputsDelivered_quiet (s : State) (headSequence : Nat) (delivered : List DeliveredInput)
    (info : Option Json) : Quiet s (onInputsDelivered s headSequence delivered info) := by
  have ho := loops_consumed (delivered_outputs s headSequence delivered info)
  unfold onInputsDelivered at ho ⊢
  split
  · exact .refl s
  · rename_i hm
    rw [if_neg hm] at ho
    exact ⟨rfl, rfl, ho, Or.inl rfl⟩

theorem onInputDeliveryFailed_quiet {s : State} {headSequence : Nat} {error : Thrown} {r : Reduction}
    (h : onInputDeliveryFailed s headSequence error = .ok r) : Quiet s r := by
  unfold onInputDeliveryFailed at h
  split at h
  · cases h
    exact .refl s
  · simp only at h
    split at h
    · cases h
      exact ⟨rfl, rfl, rfl, Or.inl rfl⟩
    · have hf := failureOutputs_quiet h
      exact ⟨hf.credential, hf.poll, hf.silent, hf.stage⟩

theorem terminalPublished_quiet {s next : State} {point : SnapshotPoint} {record : String}
    {pending : PendingTerminal} {r : Reduction} (h : publishTerminal s next point record pending = .ok r) :
    Quiet next r := by
  unfold publishTerminal at h
  split at h
  · cases h
    exact .refl next
  · split at h
    · cases h
      exact publish_quiet next pending
    · split at h
      · exact beginSnapshot_quiet h
      · cases h

theorem onTurnCompleted_quiet {s : State} {record : String} {result : SelectedTurnExecutionResult} {r : Reduction}
    (h : onTurnCompleted s record result = .ok r) : Quiet s r := by
  have hd := turnDone_quiet s result
  unfold onTurnCompleted at h
  split at h
  · cases h
    exact .refl s
  · simp only at h
    split at h
    · cases h
      exact ⟨hd.credential, hd.poll, by rw [loops_append, hd.silent]; rfl, hd.stage⟩
    · obtain ⟨published, hp, h⟩ := ok_of_step h
      cases h
      exact hd.trans (terminalPublished_quiet hp)
    · obtain ⟨pending, _, h⟩ := ok_of_step h
      obtain ⟨published, hp, h⟩ := ok_of_step h
      cases h
      exact hd.trans (terminalPublished_quiet hp)

theorem cleanResources_quiet {s : State} {publication : Publication} {thrown : String} {r : Reduction}
    (h : cleanResources s publication thrown = .ok r) : Quiet s r := by
  unfold cleanResources at h
  split at h
  · rename_i hp
    cases h
    exact ⟨rfl, rfl, rfl, .inl (by simp [hp, Phase.stage])⟩
  · cases h

theorem onSnapshotCompleted_quiet {s : State} {point : SnapshotPoint} {record : Option String}
    {error : Option Thrown} {r : Reduction} (h : onSnapshotCompleted s point record error = .ok r) : Quiet s r := by
  -- clearing the publication changes nothing of the loop
  have hcleared : ∀ {failure : WorkerFailure} {r : Reduction},
      failureOutputs { s with publication := .none } failure = .ok r → Quiet s r := fun hf =>
    have hq := failureOutputs_quiet hf
    ⟨hq.credential, hq.poll, hq.silent, hq.stage⟩
  unfold onSnapshotCompleted at h
  split at h
  · cases h
    exact .refl s
  · simp only at h
    split at h
    · cases h
      exact ⟨rfl, rfl, rfl, Or.inl rfl⟩
    · split at h
      · cases h
        exact publish_quiet s _
      · exact hcleared h
    · split at h
      · exact hcleared h
      · exact cleanResources_quiet h
    · cases h
      exact finishFatal_quiet s _
    · exact cleanResources_quiet h
    · cases h
      exact .refl s

theorem onCleanupSucceeded_quiet (s : State) : Quiet s (onCleanupSucceeded s) := by
  unfold onCleanupSucceeded
  split
  · split
    · exact finishFatal_quiet s _
    · refine ⟨rfl, rfl, ?_, Or.inr rfl⟩
      split <;> rfl
  · exact .refl s

theorem onCleanupFailed_quiet {s : State} {error : Thrown} {r : Reduction}
    (h : onCleanupFailed s error = .ok r) : Quiet s r := by
  unfold onCleanupFailed at h
  split at h
  · exact failureOutputs_quiet h
  · cases h
    exact .refl s

/-! ## The events that steer the loop -/

/-- The events the loop goes on with, starts with and ends with. -/
def Event.steers : Event → Bool
  | .credentialSampled _ _ _ | .credentialSampleFailed _ _ => true
  | .serverMessage (.credentialUpdateAccepted _ _ _ _) | .timerFired .credentialPoll _ => true
  | .serverMessage (.stop _) | .stopRequested _ _ | .bootstrapSucceeded _ _ => true
  | _ => false

theorem onTimerFired_quiet {s : State} {name : TimerName} (correlation : String) (hn : name ≠ .credentialPoll) :
    Quiet s (onTimerFired s name correlation) := by
  by_cases hc : s.timers.get name != some correlation
  · unfold onTimerFired
    rw [if_pos hc]
    exact .refl s
  · unfold onTimerFired
    rw [if_neg hc]
    cases name with
    | credentialPoll => exact absurd rfl hn
    | heartbeat => simp only; split <;> exact ⟨rfl, rfl, rfl, Or.inl rfl⟩
    | acceptanceRetry => simp only; split <;> exact ⟨rfl, rfl, rfl, Or.inl rfl⟩
    | terminalAck =>
      simp only
      split
      · split
        · have hq := publish_quiet { s with timers := s.timers.set .terminalAck none } ‹PendingTerminal›
          exact ⟨hq.credential, hq.poll, hq.silent, hq.stage⟩
        · exact ⟨rfl, rfl, rfl, Or.inl rfl⟩
      · exact ⟨rfl, rfl, rfl, Or.inl rfl⟩

/-- Every branch but those that steer the loop leaves it alone. -/
theorem handle_quiet {s : State} {e : Event} {r : Reduction} (he : e.steers = false) (h : handle s e = .ok r) :
    Quiet s r := by
  cases e with
  | runtimeStarted => cases h; exact onRuntimeStarted_quiet s
  | transportConnected => cases h; exact onTransportConnected_quiet s
  | transportFailed error => rw [handle] at h; exact failureOutputs_quiet h
  | serverMessage message =>
    cases h
    cases message with
    | start payload => exact onWorkerStart_quiet s payload
    | stop reason => cases he
    | inputBatch inputs => exact onInputBatch_quiet s inputs
    | turnStartAccepted startId record => exact onTurnStartAccepted_quiet s startId record
    | turnTerminalRecorded record => exact onTurnTerminalRecorded_quiet s record
    | credentialUpdateAccepted _ _ _ _ => cases he
    | abortTurn => exact .refl s
    | other => exact .refl s
  | stopRequested reason exit => cases he
  | operatorAbortObserved => cases h; exact .refl s
  | piTurnStarted => cases h; exact ⟨rfl, rfl, rfl, Or.inl rfl⟩
  | piTurnEnded => cases h; exact ⟨rfl, rfl, rfl, Or.inl rfl⟩
  | sessionTainted reason => cases h; exact onSessionTainted_quiet s reason
  | timerFired name correlation =>
    cases h
    exact onTimerFired_quiet correlation (by rintro rfl; cases he)
  | bootstrapSucceeded startId completion => cases he
  | bootstrapFailed startId error payload => exact onBootstrapFailed_quiet h
  | activationSucceeded startId record diagnostics =>
    cases h
    exact onActivationSucceeded_quiet s startId record diagnostics
  | activationFailed startId record error => exact onOperationFailed_quiet h
  | inputsDelivered headSequence delivered info =>
    cases h
    exact onInputsDelivered_quiet s headSequence delivered info
  | inputDeliveryFailed headSequence error => exact onInputDeliveryFailed_quiet h
  | turnCompleted record result => exact onTurnCompleted_quiet h
  | turnDefect record error => exact onOperationFailed_quiet h
  | snapshotSucceeded point record => rw [handle] at h; exact onSnapshotCompleted_quiet h
  | snapshotFailed point record error => rw [handle] at h; exact onSnapshotCompleted_quiet h
  | credentialSampled providerId values fingerprint => cases he
  | credentialSampleFailed providerId error => cases he
  | cleanupSucceeded => cases h; exact onCleanupSucceeded_quiet s
  | cleanupFailed error => exact onCleanupFailed_quiet h
  | invariantFailed error => exact failureOutputs_quiet h

/-! ## Advancing leaves the loop alone -/

theorem finishReadying_quiet (s : State) : Quiet s (finishReadying s) := by
  unfold finishReadying
  split
  · rename_i hp
    split
    · exact .refl s
    · split
      · exact beginActivation_quiet _ _ (by simp [hp, Phase.stage])
      · exact ⟨rfl, rfl, rfl, .inl (by simp [hp, armTimer, Phase.stage])⟩
  · exact .refl s

theorem beginCleanup_quiet {s : State} {reason : String} {exit : Bool} {r : Reduction} (hp : s.phase.stage = 2)
    (h : beginCleanup s reason exit = .ok r) : Quiet s r := by
  unfold beginCleanup at h
  simp only at h
  split at h
  · obtain ⟨begun, hb, h⟩ := ok_of_step h
    cases h
    have hq := beginSnapshot_quiet hb
    exact ⟨hq.credential, hq.poll, by rw [loops_cons, hq.silent]; rfl, hp ▸ hq.stage⟩
  · cases h
    exact ⟨rfl, rfl, rfl, .inl hp.symm⟩

theorem advanceInputs_quiet {recur : State → Reduce} {s : State} {start : Bool} {r : Reduction}
    (hrec : ∀ t r, recur t = .ok r → Quiet t r) (h : advanceInputs recur s start = .ok r) : Quiet s r := by
  unfold advanceInputs at h
  split at h
  · cases h
    exact .refl s
  · cases h
    exact ⟨rfl, rfl, rfl, Or.inl rfl⟩
  · rename_i inputs _
    obtain ⟨rest, hr, h⟩ := ok_of_step h
    cases h
    have hc : Quiet s (consumeIgnored s inputs) :=
      ⟨rfl, rfl, loops_consumed (ignored_outputs s inputs), Or.inl rfl⟩
    exact hc.trans (hrec _ _ hr)
  · cases h
    exact ⟨rfl, rfl, rfl, Or.inl rfl⟩
  · split at h
    · rename_i hp
      cases h
      exact ⟨rfl, rfl, rfl, .inl (by simp [hp, Phase.stage])⟩
    · cases h
      exact .refl s

theorem advanceReady_quiet {recur : State → Reduce} {s : State} {r : Reduction}
    (hrec : ∀ t r, recur t = .ok r → Quiet t r) (h : advanceReady recur s = .ok r) : Quiet s r := by
  unfold advanceReady at h
  split at h
  · rename_i hp
    split at h
    · exact beginCleanup_quiet (by simp [hp, Phase.stage]) h
    · cases h
      exact .refl s
  · split at h
    · cases h
      exact .refl s
    · exact advanceInputs_quiet hrec h
  · split at h
    · cases h
      exact .refl s
    · split at h
      · cases h
        exact .refl s
      · exact advanceInputs_quiet hrec h
  · cases h
    exact .refl s

theorem advanceWithin_quiet {fuel : Nat} {s : State} {r : Reduction} (h : advanceWithin fuel s = .ok r) :
    Quiet s r := by
  induction fuel generalizing s r with
  | zero =>
    cases h
    exact .refl s
  | succ fuel ih =>
    unfold advanceWithin at h
    simp only at h
    obtain ⟨rest, hr, h⟩ := ok_of_step h
    cases h
    exact (finishReadying_quiet s).trans (advanceReady_quiet (fun _ _ => ih) hr)

theorem advance_quiet {s : State} {r : Reduction} (h : advance s = .ok r) : Quiet s r := advanceWithin_quiet h

theorem loops_reported (s t : State) (e : Event) : loops (reportedTransition s t e) = [] := by
  unfold reportedTransition
  simp only
  split <;> rfl

/-! ## What a step does to the loop -/

/-- A step of a worker that goes on is a branch of the switch, after which the
worker advances without touching the loop. -/
theorem step_handles {s t : State} {e : Event} {os : List Output} (h : WorkerStep s e os t) :
    (t = s ∧ os = [] ∧ (s.phase = .exited ∨ ∃ m, handle s e = .error m)) ∨
      ∃ r, (s.phase = .exited → e = .runtimeStarted) ∧ handle s e = .ok r ∧
        loops os = loops r.outputs ∧ Quiet r.state ⟨t, []⟩ := by
  unfold WorkerStep step at h
  by_cases hx : s.phase = .exited ∧ e ≠ .runtimeStarted
  · unfold reduceWorkerRuntime at h
    rw [if_pos (by simpa using hx)] at h
    cases h
    exact .inl ⟨rfl, rfl, .inl hx.1⟩
  cases hh : handle s e with
  | error m =>
    have hr : reduceWorkerRuntime s e = .error m := by
      unfold reduceWorkerRuntime
      rw [if_neg (by simpa using hx), hh]
      rfl
    rw [hr] at h
    cases h
    exact .inl ⟨rfl, rfl, .inr ⟨m, rfl⟩⟩
  | ok r =>
    obtain ⟨a, ha, hr⟩ := reduce_ok hx hh
    rw [hr] at h
    cases h
    have hq := advance_quiet ha
    exact .inr ⟨r, fun hp => by_contra fun he => hx ⟨hp, he⟩, rfl, by rw [loops_append, loops_append, hq.silent, loops_reported]; simp,
      hq.credential, hq.poll, rfl, hq.stage⟩

/-! ## The invariant -/

/-- What a loop in this state has under way. -/
def CredentialState.underway (c : CredentialState) (poll : Option String) : Refresh where
  samples := if c.sampling then [c.descriptor.providerId] else []
  updates := if c.updatePending then [c.descriptor.providerId] else []
  poll := poll

/-- The state of a loop says what is under way; an enabled loop goes on. -/
structure Looping (c : CredentialState) (r : Refresh) : Prop where
  underway : r = c.underway r.poll
  alive : c.enabled = true → r.Alive
  ended : c.enabled = false → r = {}

/-- Before the bootstrap there is no loop. At work, a loop and what it has
under way are in step. A worker that stops has left its loop, whose last sample
may still be answered. -/
structure LoopInv (x : RefreshEnv) : Prop where
  single : x.refresh.samples.length ≤ 1
  before : x.state.phase.stage = 0 → x.state.credential = none
  poll : x.state.phase.stage ≤ 2 → x.state.timers.credentialPoll = x.refresh.poll
  idle : x.state.phase.stage ≤ 1 → x.state.credential = none → x.refresh = {}
  looping : ∀ c, x.state.phase.stage ≤ 1 → x.state.credential = some c → Looping c x.refresh
  stopped : x.state.phase.stage = 2 → x.state.credential = none ∧ x.refresh.poll = none

theorem looping_sampling {c : CredentialState} (hs : c.sampling = true) (hu : c.updatePending = false)
    (he : c.enabled = true) : Looping c ⟨[c.descriptor.providerId], [], none⟩ :=
  ⟨by simp [CredentialState.underway, hs, hu], fun _ => .inl ⟨_, rfl⟩, by simp [he]⟩

theorem looping_updating {c : CredentialState} (hs : c.sampling = false) (hu : c.updatePending = true)
    (he : c.enabled = true) : Looping c ⟨[], [c.descriptor.providerId], none⟩ :=
  ⟨by simp [CredentialState.underway, hs, hu], fun _ => .inr (.inl ⟨_, rfl⟩), by simp [he]⟩

theorem looping_polling {c : CredentialState} (correlation : String) (hs : c.sampling = false)
    (hu : c.updatePending = false) (he : c.enabled = true) : Looping c ⟨[], [], some correlation⟩ :=
  ⟨by simp [CredentialState.underway, hs, hu], fun _ => .inr (.inr ⟨_, rfl⟩), by simp [he]⟩

theorem looping_ended {c : CredentialState} (hs : c.sampling = false) (hu : c.updatePending = false)
    (he : c.enabled = false) : Looping c {} :=
  ⟨by simp [CredentialState.underway, hs, hu], by simp [he], fun _ => rfl⟩

/-- Where a loop can be. -/
theorem Looping.places {c : CredentialState} {r : Refresh} (h : Looping c r) :
    r = {} ∨ c.enabled = true ∧
      (c.sampling = true ∧ c.updatePending = false ∧ r = ⟨[c.descriptor.providerId], [], none⟩ ∨
        c.sampling = false ∧ c.updatePending = true ∧ r = ⟨[], [c.descriptor.providerId], none⟩ ∨
        c.sampling = false ∧ c.updatePending = false ∧ ∃ correlation, r = ⟨[], [], some correlation⟩) := by
  cases he : c.enabled with
  | false => exact .inl (h.ended he)
  | true =>
    refine .inr ⟨rfl, ?_⟩
    have hsamples := congrArg Refresh.samples h.underway
    have hupdates := congrArg Refresh.updates h.underway
    simp only [CredentialState.underway] at hsamples hupdates
    rcases h.alive he with ⟨p, rfl⟩ | ⟨p, rfl⟩ | ⟨p, rfl⟩ <;>
      cases hs : c.sampling <;> cases hp : c.updatePending <;> simp_all

/-- A working state whose loop is in step. -/
theorem loopInv_working {s : State} {r : Refresh} {c : CredentialState} (hs : s.phase.stage = 1)
    (hc : s.credential = some c) (hp : s.timers.credentialPoll = r.poll) (hl : Looping c r) : LoopInv ⟨s, r⟩ where
  single := by
    rcases hl.places with rfl | ⟨_, ⟨_, _, rfl⟩ | ⟨_, _, rfl⟩ | ⟨_, _, _, rfl⟩⟩ <;> simp
  before := by simp [hs]
  poll := fun _ => hp
  idle := by simp [hc]
  looping := by
    intro c' _ hc'
    obtain rfl : c = c' := Option.some.inj (hc.symm.trans hc')
    exact hl
  stopped := by simp [hs]

/-- A stopping state that has left its loop. -/
theorem loopInv_stopped {s : State} {r : Refresh} (hs : s.phase.stage = 2) (hc : s.credential = none)
    (ht : s.timers.credentialPoll = none) (hp : r.poll = none) (h1 : r.samples.length ≤ 1) :
    LoopInv ⟨s, r⟩ where
  single := h1
  before := by simp [hs]
  poll := fun _ => ht.trans hp.symm
  idle := by simp [hs]
  looping := by simp [hs]
  stopped := fun _ => ⟨hc, hp⟩

theorem LoopInv.quiet {s t : State} {r : Refresh} (hi : LoopInv ⟨s, r⟩) (hq : Quiet s ⟨t, []⟩) : LoopInv ⟨t, r⟩ := by
  obtain ⟨hc, hp, -, hst | hst⟩ := hq
  · refine ⟨hi.single, ?_, ?_, ?_, ?_, ?_⟩
    · exact fun h => hc.trans (hi.before (hst ▸ h))
    · exact fun h => hp.trans (hi.poll (hst ▸ h))
    · exact fun h hn => hi.idle (hst ▸ h) (hc ▸ hn)
    · exact fun c h hn => hi.looping c (hst ▸ h) (hc ▸ hn)
    · exact fun h => ⟨hc.trans (hi.stopped (hst ▸ h)).1, (hi.stopped (hst ▸ h)).2⟩
  · have h3 : Phase.exited.stage = 3 := rfl
    refine ⟨hi.single, ?_, ?_, ?_, ?_, ?_⟩ <;> simp only at hst <;> simp [hst, h3]

/-- A state with a loop is at work. -/
theorem LoopInv.at_work {s : State} {r : Refresh} {c : CredentialState} (hi : LoopInv ⟨s, r⟩)
    (hx : s.phase ≠ .exited) (hc : s.credential = some c) : s.phase.stage = 1 ∧ Looping c r := by
  have hs : s.phase.stage = 1 := by
    have h0 : s.phase.stage ≠ 0 := fun h => by simpa [hc] using hi.before h
    have h2 : s.phase.stage ≠ 2 := fun h => by simpa [hc] using (hi.stopped h).1
    have h3 : s.phase.stage ≠ 3 := fun h => hx (stage_three h)
    have hle : s.phase.stage ≤ 3 := by cases s.phase <;> simp [Phase.stage]
    omega
  exact ⟨hs, hi.looping c (by simp [hs]) hc⟩

/-- A state without a loop has nothing under way, or stops. -/
theorem LoopInv.at_rest {s : State} {r : Refresh} (hi : LoopInv ⟨s, r⟩) (hx : s.phase ≠ .exited)
    (hc : s.credential = none) : r = {} ∨ s.phase.stage = 2 := by
  have h3 : s.phase.stage ≠ 3 := fun h => hx (stage_three h)
  have hle : s.phase.stage ≤ 3 := by cases s.phase <;> simp [Phase.stage]
  by_cases h2 : s.phase.stage = 2
  · exact .inr h2
  · exact .inl (hi.idle (show s.phase.stage ≤ 1 by omega) hc)

/-! ## The steps that steer the loop -/

section steering
variable {s : State} {r : Refresh}

theorem sampled_inv {providerId : String} (values : Json) (fingerprint : String) (hi : LoopInv ⟨s, r⟩)
    (hx : s.phase ≠ .exited) (ha : providerId ∈ r.samples) :
    LoopInv ⟨(onCredentialSampled s providerId values fingerprint).state,
      (loops (onCredentialSampled s providerId values fingerprint).outputs).foldl Refresh.issue
        { r with samples := r.samples.erase providerId }⟩ := by
  unfold onCredentialSampled
  cases hc : s.credential with
  | none =>
    -- the answer comes after the stop, and nothing follows it
    rcases hi.at_rest hx hc with rfl | h2
    · cases ha
    · have h1 : (r.samples.erase providerId).length ≤ 1 := Nat.le_trans List.length_erase_le hi.single
      exact loopInv_stopped h2 hc ((hi.poll (Nat.le_of_eq h2)).trans (hi.stopped h2).2) (hi.stopped h2).2 h1
  | some c =>
    obtain ⟨h1, hl⟩ := hi.at_work hx hc
    rcases hl.places with rfl | ⟨he, ⟨hs, hu, rfl⟩ | ⟨_, _, rfl⟩ | ⟨_, _, _, rfl⟩⟩
    · cases ha
    · obtain rfl : providerId = c.descriptor.providerId := by simpa using ha
      simp only [hs, bne_self_eq_false, Bool.not_true, Bool.or_self, Bool.false_eq_true, if_false]
      by_cases hb : c.baselineFingerprint.all (· == fingerprint) = true
      · rw [if_pos hb, List.erase_cons_head]
        refine loopInv_working h1 rfl rfl ?_
        exact looping_polling _ rfl hu he
      · rw [if_neg hb, List.erase_cons_head]
        refine loopInv_working h1 rfl (hi.poll (by simp [h1])) ?_
        exact looping_updating rfl rfl he
    · cases ha
    · cases ha

theorem sampleFailed_inv {providerId : String} (error : Thrown) (hi : LoopInv ⟨s, r⟩)
    (hx : s.phase ≠ .exited) (ha : providerId ∈ r.samples) :
    LoopInv ⟨(onCredentialSampleFailed s providerId error).state,
      (loops (onCredentialSampleFailed s providerId error).outputs).foldl Refresh.issue
        { r with samples := r.samples.erase providerId }⟩ := by
  unfold onCredentialSampleFailed
  cases hc : s.credential with
  | none =>
    rcases hi.at_rest hx hc with rfl | h2
    · cases ha
    · have h1 : (r.samples.erase providerId).length ≤ 1 := Nat.le_trans List.length_erase_le hi.single
      exact loopInv_stopped h2 hc ((hi.poll (Nat.le_of_eq h2)).trans (hi.stopped h2).2) (hi.stopped h2).2 h1
  | some c =>
    obtain ⟨h1, hl⟩ := hi.at_work hx hc
    rcases hl.places with rfl | ⟨he, ⟨hs, hu, rfl⟩ | ⟨_, _, rfl⟩ | ⟨_, _, _, rfl⟩⟩
    · cases ha
    · obtain rfl : providerId = c.descriptor.providerId := by simpa using ha
      simp only [hs, bne_self_eq_false, Bool.not_true, Bool.or_self, Bool.false_eq_true, if_false]
      rw [List.erase_cons_head]
      refine loopInv_working h1 rfl rfl ?_
      exact looping_polling _ rfl hu he
    · cases ha
    · cases ha

theorem updateAccepted_inv {providerId : String} (accepted : Bool) (revision : Option Nat)
    (reason : Option String) (hi : LoopInv ⟨s, r⟩) (hx : s.phase ≠ .exited) (ha : providerId ∈ r.updates) :
    LoopInv ⟨(onCredentialUpdateAccepted s providerId accepted revision reason).state,
      (loops (onCredentialUpdateAccepted s providerId accepted revision reason).outputs).foldl Refresh.issue
        { r with updates := r.updates.erase providerId }⟩ := by
  unfold onCredentialUpdateAccepted
  cases hc : s.credential with
  | none =>
    rcases hi.at_rest hx hc with rfl | h2
    · cases ha
    · exact loopInv_stopped h2 hc ((hi.poll (Nat.le_of_eq h2)).trans (hi.stopped h2).2) (hi.stopped h2).2 hi.single
  | some c =>
    obtain ⟨h1, hl⟩ := hi.at_work hx hc
    rcases hl.places with rfl | ⟨he, ⟨_, _, rfl⟩ | ⟨hs, hu, rfl⟩ | ⟨_, _, _, rfl⟩⟩
    · cases ha
    · cases ha
    · obtain rfl : providerId = c.descriptor.providerId := by simpa using ha
      have hp : s.timers.credentialPoll = none := hi.poll (by simp [h1])
      simp only [he, hu, bne_self_eq_false, Bool.not_true, Bool.or_self, Bool.false_eq_true, if_false]
      rw [List.erase_cons_head]
      cases revision.filter fun _ => accepted with
      | none =>
        refine loopInv_working h1 rfl hp ?_
        exact looping_ended hs rfl rfl
      | some revision =>
        refine loopInv_working h1 rfl hp ?_
        exact looping_sampling rfl rfl rfl
    · cases ha

theorem pollFired_inv {correlation : String} (hi : LoopInv ⟨s, r⟩) (hx : s.phase ≠ .exited)
    (ha : r.poll = some correlation) :
    LoopInv ⟨(onTimerFired s .credentialPoll correlation).state,
      (loops (onTimerFired s .credentialPoll correlation).outputs).foldl Refresh.issue { r with poll := none }⟩ := by
  cases hc : s.credential with
  | none =>
    rcases hi.at_rest hx hc with rfl | h2
    · cases ha
    · rw [(hi.stopped h2).2] at ha
      cases ha
  | some c =>
    obtain ⟨h1, hl⟩ := hi.at_work hx hc
    have ht : s.timers.credentialPoll = some correlation := (hi.poll (by simp [h1])).trans ha
    unfold onTimerFired
    rcases hl.places with rfl | ⟨he, ⟨_, _, rfl⟩ | ⟨_, _, rfl⟩ | ⟨hs, hu, _, rfl⟩⟩
    · cases ha
    · cases ha
    · cases ha
    · simp only [Timers.get, ht, hc, he, hs, hu, bne_self_eq_false, Bool.false_eq_true, if_false, Bool.not_false,
        Bool.and_self, if_true]
      refine loopInv_working h1 rfl rfl ?_
      exact looping_sampling rfl rfl rfl

theorem stopRequested_inv (reason : String) (exit : Bool) (hi : LoopInv ⟨s, r⟩) :
    LoopInv ⟨(onStopRequested s reason exit).state,
      (loops (onStopRequested s reason exit).outputs).foldl Refresh.issue r⟩ := by
  unfold onStopRequested
  split
  · exact hi
  · exact hi
  · exact loopInv_stopped rfl rfl rfl rfl hi.single

/-- A bootstrap starts the loop, unless the worker has been asked to stop. -/
theorem bootstrapSucceeded_inv {startId : String} {completion : WorkerBootstrapCompletion} {r' : Reduction}
    (hi : LoopInv ⟨s, r⟩) (h : onBootstrapSucceeded s startId completion = .ok r') :
    LoopInv ⟨r'.state, (loops r'.outputs).foldl Refresh.issue r⟩ := by
  have hfacts : loops (bootstrappedFacts completion) = [] := by
    refine loops_eq_nil fun o ho => ?_
    simp only [bootstrappedFacts, bootstrapDiagnostics, List.mem_append, List.mem_map, List.mem_cons] at ho
    rcases ho with ⟨_, _, rfl⟩ | rfl | rfl | rfl | ho
    · rfl
    · rfl
    · rfl
    · rfl
    · cases ho
  unfold onBootstrapSucceeded at h
  split at h
  · cases h
    exact hi
  · rename_i hm
    simp only at h
    split at h
    · rename_i hp
      cases h
      have h2 : s.phase.stage = 2 := by simp [hp, Phase.stage]
      rw [hfacts]
      exact loopInv_stopped (by simp [bootstrapped, hp, Phase.stage]) (by simp [bootstrapped, hp])
        ((hi.poll (Nat.le_of_eq h2)).trans (hi.stopped h2).2) (hi.stopped h2).2 hi.single
    · rename_i hnd
      obtain ⟨ready, hr, h⟩ := ok_of_step h
      cases h
      have hb : s.phase.stage = 0 := by
        unfold matchesBootstrap at hm
        cases hp : s.phase <;> simp_all [Phase.stage]
      have hq : Quiet (bootstrapped s startId completion) ready := by
        unfold beginReadySnapshot at hr
        split at hr
        · exact beginSnapshot_quiet hr
        · cases hr
          exact .refl _
      have hr0 : r = {} := hi.idle (by simp [hb]) (hi.before hb)
      have hphase : (bootstrapped s startId completion).phase.stage = 1 := by
        unfold bootstrapped
        cases hp : s.phase <;> simp_all [Phase.stage]
      have hcredential : (bootstrapped s startId completion).credential =
          completion.credentialRefresh.map initialCredential := by
        unfold bootstrapped
        cases hp : s.phase <;> simp_all [Phase.stage]
      have hpoll : (bootstrapped s startId completion).timers.credentialPoll = none :=
        (hi.poll (by simp [hb])).trans (by rw [hr0])
      have hmoved : Quiet (bootstrapped s startId completion)
          ⟨(armTimer ready.state .heartbeat completion.session.heartbeatIntervalMs startId).state, []⟩ :=
        ⟨hq.credential, hq.poll, rfl, hq.stage⟩
      refine LoopInv.quiet ?_ hmoved
      rw [loops_append, loops_append, loops_append, hfacts, hq.silent, hr0]
      cases hd : completion.credentialRefresh with
      | none =>
        rw [hd] at hcredential
        exact
          { single := by simp [armTimer, Output.loop?]
            before := by simp [hphase]
            poll := fun _ => hpoll
            idle := fun _ _ => rfl
            looping := by simp [hcredential]
            stopped := by simp [hphase] }
      | some descriptor =>
        rw [hd] at hcredential
        refine loopInv_working hphase hcredential hpoll ?_
        exact looping_sampling rfl rfl rfl
end steering

/-! ## Every step keeps the invariant -/

/-- The reducer throws on no answer and on no timer. -/
theorem meet_of_throws {s : State} {e : Event} {m : String} (r : Refresh) (h : handle s e = .error m) :
    r.meet e = r := by
  have ht := handle_throws h
  cases e <;> first | rfl | exact ht.elim

theorem meet_of_quiet {e : Event} (r : Refresh) (he : e.steers = false) : r.meet e = r := by
  unfold Refresh.meet
  split
  · cases he
  · cases he
  · cases he
  · cases he
  · rfl

theorem meet_single {r : Refresh} (e : Event) (h : r.samples.length ≤ 1) : (r.meet e).samples.length ≤ 1 := by
  unfold Refresh.meet
  split
  · exact Nat.le_trans List.length_erase_le h
  · exact Nat.le_trans List.length_erase_le h
  · exact h
  · exact h
  · exact h

theorem loopInv_init : LoopInv RefreshEnv.init where
  single := by simp [RefreshEnv.init]
  before := fun _ => rfl
  poll := fun _ => rfl
  idle := fun _ _ => rfl
  looping := fun c _ h => nomatch h
  stopped := nofun

theorem loopInv_step {x y : RefreshEnv} {e : Event} {os : List Output} (hi : LoopInv x)
    (h : RefreshStep x e os y) : LoopInv y := by
  obtain ⟨⟨hst, hy⟩, ha⟩ := h
  obtain ⟨s, r⟩ := x
  obtain ⟨t, r'⟩ := y
  simp only at hst hy ha
  subst hy
  rcases step_handles hst with ⟨rfl, rfl, hx | ⟨m, hm⟩⟩ | ⟨reduced, hx, hh, hos, hq⟩
  · -- a worker that has exited hears nothing
    have h3 : Phase.exited.stage = 3 := rfl
    refine ⟨meet_single e hi.single, ?_, ?_, ?_, ?_, ?_⟩ <;> simp [hx, h3]
  · rw [meet_of_throws r hm]
    exact hi
  · refine LoopInv.quiet ?_ hq
    rw [hos]
    cases he : e.steers with
    | false =>
      have hquiet := handle_quiet he hh
      rw [meet_of_quiet r he, hquiet.silent]
      exact hi.quiet ⟨hquiet.credential, hquiet.poll, rfl, hquiet.stage⟩
    | true =>
      have hne : s.phase ≠ .exited := fun hp => by rw [hx hp] at he; cases he
      unfold Event.steers at he
      split at he
      · cases hh
        exact sampled_inv _ _ hi hne (by simpa [Refresh.admits] using ha)
      · cases hh
        exact sampleFailed_inv _ hi hne (by simpa [Refresh.admits] using ha)
      · cases hh
        exact updateAccepted_inv _ _ _ hi hne (by simpa [Refresh.admits] using ha)
      · cases hh
        exact pollFired_inv hi hne (by simpa [Refresh.admits] using ha)
      · cases hh
        exact stopRequested_inv _ _ hi
      · cases hh
        exact stopRequested_inv _ _ hi
      · exact bootstrapSucceeded_inv hi hh
      · cases he

/-- In every run in which samples and updates are answered once and the poll
timer fires only when armed, at most one sample is without an answer; and
while credential refresh is enabled in a worker that has not left its working
phases, exactly one thing keeps the loop going: a sample without an answer, an
update the server has not answered, or the armed poll timer. -/
theorem credential_loop_alive {h : Hist Event Output} {x : RefreshEnv} (hr : Run RefreshStep RefreshEnv.init h x) :
    x.refresh.samples.length ≤ 1 ∧
      ∀ c, x.state.phase.working = true → x.state.credential = some c → c.enabled = true → x.refresh.Alive := by
  have hi : LoopInv x := hr.inv LoopInv loopInv_init fun _ _ _ _ hi hst => loopInv_step hi hst
  refine ⟨hi.single, fun c hw hc he => ?_⟩
  exact (hi.looping c (by simpa [Phase.working] using hw) hc).alive he

theorem refresh_moves (x : RefreshEnv) (e : Event) : RefreshMove x e (step x.state e).outputs (x.next e) := ⟨rfl, rfl⟩

/-- A worker whose credentials are sampled, are polled, and change. -/
def demoRefreshed : List Event :=
  let descriptor : CredentialRefreshDescriptor := ⟨"/agent", ["auth.json"], "provider", 1⟩
  [.runtimeStarted, .serverMessage (.start demoStart),
    .bootstrapSucceeded "start" { demoBootstrap .automatic .active with credentialRefresh := some descriptor },
    .credentialSampled "provider" "{}" "first", .timerFired .credentialPoll "provider",
    .credentialSampled "provider" "{}" "second"]

/-- Its changed credentials are with the server. -/
theorem credential_loop_alive_demo : (demoRefreshed.foldl RefreshEnv.next RefreshEnv.init).refresh.Alive := by
  have hr := run_guarded RefreshEnv.next (fun x e => (step x.state e).outputs) refresh_moves
    (show allOk RefreshEnv.next (fun x e => x.refresh.admits e) RefreshEnv.init demoRefreshed = true by decide)
  exact (credential_loop_alive hr).2 _ (by decide) rfl rfl

end Leitwerk.Worker
