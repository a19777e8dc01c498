import Leitwerk.Worker.Core
import Leitwerk.Lib.Results
/-!
# What each branch of the switch does

`handle_branch`: a branch that does not throw ignores its event or is a case of
`Handled`. One lemma a branch.
-/

namespace Leitwerk.Worker

open Results (ok_of_step)

/-! ## Snapshots -/

theorem beginSnapshot_ok {s : State} {publication : Publication} {source : SnapshotSource} {r : Reduction}
    (h : beginSnapshot s publication source = .ok r) :
    s.publication = .none ∧ r.state = { s with publication := publication } ∧
      r.outputs = publication.snapshot.toList.map fun snapshot => .command (.uploadSnapshot snapshot source) := by
  unfold beginSnapshot at h
  split at h
  · cases h
  · rename_i hp
    cases h
    exact ⟨by simpa [hasActivePublication] using hp, rfl, rfl⟩

/-! ## Failures -/

/-- What a failure says before its disposition is carried out. -/
theorem tracked_said (disposition : FailureDisposition) :
    tracked ((disposition.diagnostic.toList.map fun d => Output.diagnostic d none) ++
      if disposition.stderrMessage.isEmpty then [] else [.stderr disposition.stderrMessage]) = [] := by
  rw [tracked_append]
  cases disposition.diagnostic <;> split <;> simp [Output.tracked]

theorem tracked_exitCode (fatal : PendingFatal) :
    tracked (fatal.exitCode.toList.map fun code => .command (.exit code)) = [] := by
  cases fatal.exitCode <;> simp [Output.tracked]

theorem finishFatal_core (s : State) (fatal : PendingFatal) :
    tracked (finishFatal s fatal).outputs = [.fact (.failed fatal.payload)] ∧
      (finishFatal s fatal).state.core = { s.core with publication := .none, phase := .exited } := by
  simp [finishFatal, Output.tracked, tracked_exitCode, State.core]

theorem failure_fatal {s : State} (failure : WorkerFailure) {r : Reduction} {payload : WorkerFailedPayload}
    (ht : (normalizeWorkerFailure failure).terminal = .workerFailed payload)
    (h : failureOutputs s failure = .ok r) :
    Fatal s.core (normalizeWorkerFailure failure).snapshot (tracked r.outputs) r.state.core := by
  unfold failureOutputs at h
  simp only [ht] at h
  generalize hd : normalizeWorkerFailure failure = disposition at h ⊢
  cases hs : disposition.snapshot with
  | none =>
    simp only [hs] at h
    cases h
    rw [tracked_append, tracked_said, (finishFatal_core s _).1, (finishFatal_core s _).2]
    exact .exit (.inl rfl)
  | some src =>
    simp only [hs] at h
    cases hp : hasActivePublication s with
    | true =>
      simp only [hp] at h
      cases h
      rw [tracked_append, tracked_said, (finishFatal_core s _).1, (finishFatal_core s _).2]
      exact .exit (.inr (by simpa [hasActivePublication] using hp))
    | false =>
      simp only [hp, beginSnapshot] at h
      cases h
      rw [tracked_append, tracked_said]
      exact .snapshot rfl (by simpa [hasActivePublication] using hp)

theorem failure_dispatch {s : State} {error : Thrown} {name : StateName} {r : Reduction}
    (h : failureOutputs s (.dispatch error name (failureContext s)) = .ok r) :
    Dispatch s.core (tracked r.outputs) r.state.core := by
  cases hp : parks (failureContext s) with
  | true =>
    obtain ⟨payload, ht⟩ := dispatch_parks error name hp
    unfold failureOutputs at h
    simp only [ht] at h
    cases h
    rw [tracked_append, tracked_said]
    exact .parked hp
  | false =>
    obtain ⟨payload, ht, hsnap, _⟩ := dispatch_fails error name hp
    have hf := failure_fatal _ ht h
    rw [hsnap] at hf
    refine .fatal hp ?_
    cases hs : s.session <;> simpa [State.source, failureContext, State.core, hs] using hf

theorem failure_cleanup {s : State} {error : Thrown} (session : Option PreparedWorkerSession) {r : Reduction}
    (h : failureOutputs s (.cleanup error (failureContext { s with session := session })) = .ok r) :
    Fatal s.core (session.map sessionSnapshotSource) (tracked r.outputs) r.state.core := by
  obtain ⟨payload, ht, hsnap, _⟩ := cleanup_fails error (failureContext { s with session := session })
  have hf := failure_fatal _ ht h
  rw [hsnap] at hf
  cases session <;> simpa [failureContext] using hf

theorem failureOutputs_ok (s : State) (failure : WorkerFailure) : ∃ r, failureOutputs s failure = .ok r := by
  unfold failureOutputs
  cases ht : (normalizeWorkerFailure failure).terminal with
  | turnFailed payload park => simp only [ht]; exact ⟨_, rfl⟩
  | park payload => simp only [ht]; exact ⟨_, rfl⟩
  | transportLost => simp only [ht]; exact ⟨_, rfl⟩
  | workerFailed payload =>
    simp only [ht]
    split
    · rename_i hp
      simp only [beginSnapshot, hp]
      exact ⟨_, rfl⟩
    · exact ⟨_, rfl⟩

/-! ## The branches -/

/-- A branch of the switch that did not throw: the event was ignored, or handled. -/
def Branch (s : State) (e : Event) (r : Reduction) : Prop :=
  Ignored s.core e ∧ tracked r.outputs = [] ∧ r.state.core = s.core ∨
    Handled s.core e (tracked r.outputs) r.state.core

theorem onRuntimeStarted_branch (s : State) : Branch s .runtimeStarted (onRuntimeStarted s) := by
  unfold onRuntimeStarted
  split
  · rename_i hp
    exact .inr (.started hp)
  · rename_i hp
    exact .inl ⟨hp, rfl, rfl⟩

theorem tracked_heartbeats (s : State) : tracked (s.session.toList.map (heartbeatFact s)) = [] := by
  cases s.session <;> simp [heartbeatFact, Output.tracked]

theorem publish_core (s : State) (terminal : PendingTerminal) :
    tracked (publishTerminalAndAwaitAcknowledgement s terminal).outputs = [terminal.output] ∧
      (publishTerminalAndAwaitAcknowledgement s terminal).state.core = s.core.awaiting terminal := by
  refine ⟨?_, rfl⟩
  cases hp : terminal.park <;>
    simp [publishTerminalAndAwaitAcknowledgement, armTimer, PendingTerminal.output, Output.tracked, hp]

theorem onTransportConnected_branch (s : State) : Branch s .transportConnected (onTransportConnected s) := by
  unfold onTransportConnected
  split
  · rename_i terminal hp
    refine .inr ?_
    simp only [tracked_append, tracked_heartbeats, (publish_core s terminal).1, (publish_core s terminal).2]
    exact .reconnected hp
  · rename_i hp
    refine .inl ⟨hp, ?_, rfl⟩
    simp only [tracked_append, tracked_heartbeats]
    rfl

theorem transportFailed_branch {s : State} {error : Thrown} {r : Reduction}
    (h : failureOutputs s (.transport error) = .ok r) : Branch s (.transportFailed error) r := by
  have hs := tracked_said (normalizeWorkerFailure (.transport error))
  unfold failureOutputs at h
  simp only [normalizeWorkerFailure] at h hs
  cases h
  refine .inr ?_
  rw [tracked_append, hs]
  exact .transportLost

theorem onStopRequested_branch {s : State} {e : Event} (he : e.isStop = true) (reason : String) (exit : Bool)
    (hi : s.phase.stopping = true → Ignored s.core e) : Branch s e (onStopRequested s reason exit) := by
  unfold onStopRequested
  split
  · rename_i hp
    exact .inl ⟨hi (by rw [hp]; rfl), rfl, rfl⟩
  · rename_i hp
    exact .inl ⟨hi (by rw [hp]; rfl), rfl, rfl⟩
  · rename_i hc hd
    refine .inr (.stopped he ?_)
    cases hp : s.phase <;> simp_all [Phase.stopping]

theorem onSessionTainted_branch (s : State) (reason : String) :
    Branch s (.sessionTainted reason) (onSessionTainted s reason) := by
  refine .inr ?_
  unfold onSessionTainted
  split
  · rename_i ht
    have : s.core = { s.core with sessionTainted := true } := by simp [State.core, ht]
    have hh : Handled s.core (.sessionTainted reason) [] { s.core with sessionTainted := true } := .tainted
    rwa [← this] at hh
  · exact .tainted

theorem onWorkerStart_branch (s : State) (payload : WorkerStartPayload) :
    Branch s (.serverMessage (.start payload)) (onWorkerStart s payload) := by
  unfold onWorkerStart
  split
  · rename_i hp
    exact .inr (.start hp)
  · rename_i hp
    exact .inl ⟨hp, rfl, rfl⟩

theorem onInputBatch_core (s : State) (inputs : List InputDelivery) :
    tracked (onInputBatch s inputs).outputs = [] ∧
      (onInputBatch s inputs).state.core = (onInputBatch s.core inputs).state := by
  unfold onInputBatch
  split <;> simp_all [State.core]

theorem onInputBatch_branch (s : State) (inputs : List InputDelivery) :
    Branch s (.serverMessage (.inputBatch inputs)) (onInputBatch s inputs) := by
  by_cases hi : s.phase = .init
  · simp only [onInputBatch, hi]
    exact .inl ⟨.inl hi, rfl, rfl⟩
  by_cases hw : s.phase = .waitingForStart
  · simp only [onInputBatch, hw]
    exact .inl ⟨.inr hw, rfl, rfl⟩
  · refine .inr ?_
    rw [(onInputBatch_core s inputs).1, (onInputBatch_core s inputs).2]
    exact .batch hi hw

theorem beginActivation_core {s : State} {session : PreparedWorkerSession} (startId record : String)
    (hs : s.session = some session) :
    tracked (beginActivation s startId record).outputs = [.command (.activate startId record session)] ∧
      (beginActivation s startId record).state.core = { s.core with phase := .activating startId record } := by
  unfold beginActivation
  split
  · rename_i hn
    rw [hn] at hs
    cases hs
  · rename_i session' hs'
    rw [hs'] at hs
    cases hs
    exact ⟨rfl, rfl⟩

theorem onTurnStartAccepted_branch (s : State) (startId record : String) :
    Branch s (.serverMessage (.turnStartAccepted startId record)) (onTurnStartAccepted s startId record) := by
  unfold onTurnStartAccepted
  split
  · rename_i id proposed accepted hp
    split
    · rename_i hid
      simp only [beq_iff_eq] at hid
      subst hid
      exact .inr (.acceptedEarly hp)
    · rename_i hid
      have hne : (id == startId) = false := by simpa using fun h => hid (by simp [h])
      exact .inl ⟨by simpa [Ignored, awaitsAcceptance, hp] using hne, rfl, rfl⟩
  · rename_i id proposed hp
    split
    · rename_i hid
      simp only [beq_iff_eq] at hid
      subst hid
      cases hs : s.session with
      | none =>
        simp only [beginActivation, hs]
        exact .inl ⟨by simp [Ignored, awaitsAcceptance, hp, hs], rfl, by simp [State.core, hs]⟩
      | some session =>
        refine .inr ?_
        rw [(beginActivation_core _ _ hs).1, (beginActivation_core _ _ hs).2]
        exact .accepted hp hs
    · rename_i hid
      have hne : (id == startId) = false := by simpa using fun h => hid (by simp [h])
      exact .inl ⟨by simp [Ignored, awaitsAcceptance, hp, hne], rfl, rfl⟩
  · rename_i hr hw
    refine .inl ⟨?_, rfl, rfl⟩
    unfold Ignored awaitsAcceptance
    simp only [core_phase]

theorem onTurnTerminalRecorded_branch (s : State) (record : String) :
    Branch s (.serverMessage (.turnTerminalRecorded record)) (onTurnTerminalRecorded s record) := by
  unfold onTurnTerminalRecorded
  split
  · rename_i terminal hp
    split
    · rename_i hid
      simp only [beq_iff_eq] at hid
      subst hid
      exact .inr (.acknowledged hp)
    · rename_i hid
      exact .inl ⟨by simpa [Ignored, awaitsAck, hp] using hid, rfl, rfl⟩
  · rename_i hp
    refine .inl ⟨?_, rfl, rfl⟩
    unfold Ignored awaitsAck
    simp only [core_publication]

theorem onCredentialUpdateAccepted_quiet (s : State) (providerId : String) (accepted : Bool)
    (revision : Option Nat) (reason : Option String) :
    tracked (onCredentialUpdateAccepted s providerId accepted revision reason).outputs = [] ∧
      (onCredentialUpdateAccepted s providerId accepted revision reason).state.core = s.core := by
  unfold onCredentialUpdateAccepted
  split
  · exact ⟨rfl, rfl⟩
  · split
    · exact ⟨rfl, rfl⟩
    · split <;> exact ⟨rfl, rfl⟩

theorem onServerMessage_branch (s : State) (message : ServerMessage) :
    Branch s (.serverMessage message) (onServerMessage s message) := by
  cases message with
  | start payload => exact onWorkerStart_branch s payload
  | stop reason => exact onStopRequested_branch rfl reason true id
  | abortTurn => exact .inl ⟨trivial, rfl, rfl⟩
  | inputBatch inputs => exact onInputBatch_branch s inputs
  | turnStartAccepted startId record => exact onTurnStartAccepted_branch s startId record
  | turnTerminalRecorded record => exact onTurnTerminalRecorded_branch s record
  | credentialUpdateAccepted providerId accepted revision reason =>
    exact .inl ⟨trivial, onCredentialUpdateAccepted_quiet s providerId accepted revision reason⟩
  | other => exact .inl ⟨trivial, rfl, rfl⟩

theorem tracked_bootstrapDiagnostics (messages : List String) : tracked (bootstrapDiagnostics messages) = [] := by
  induction messages with
  | nil => rfl
  | cons m ms ih => simpa [bootstrapDiagnostics, Output.tracked] using ih

theorem tracked_bootstrappedFacts (completion : WorkerBootstrapCompletion) :
    tracked (bootstrappedFacts completion) = [] := by
  rw [bootstrappedFacts, tracked_append, tracked_bootstrapDiagnostics]
  rfl

theorem tracked_samples (refresh : Option CredentialRefreshDescriptor) :
    tracked (refresh.toList.map fun d => .command (.sampleCredentials d true)) = [] := by
  cases refresh <;> simp [Output.tracked]

theorem onBootstrapSucceeded_branch {s : State} {startId : String} {completion : WorkerBootstrapCompletion}
    {r : Reduction} (h : onBootstrapSucceeded s startId completion = .ok r) :
    Branch s (.bootstrapSucceeded startId completion) r := by
  unfold onBootstrapSucceeded at h
  cases hm : matchesBootstrap s startId with
  | false =>
    simp only [hm] at h
    cases h
    exact .inl ⟨hm, rfl, rfl⟩
  | true =>
    simp only [hm] at h
    refine .inr ?_
    unfold matchesBootstrap at hm
    split at hm
    · rename_i id proposed hp
      simp only [beq_iff_eq] at hm
      subst hm
      simp only [hp] at h
      obtain ⟨ready, hr, h⟩ := ok_of_step h
      cases h
      simp only [tracked_append, tracked_bootstrappedFacts, tracked_samples]
      unfold beginReadySnapshot at hr
      split at hr
      · obtain ⟨hn, hs, ho⟩ := beginSnapshot_ok hr
        simp only [armTimer, hs, ho]
        exact .bootstrapReadied hp (.inr ⟨hn, rfl, rfl⟩)
      · cases hr
        exact .bootstrapReadied hp (.inl ⟨rfl, rfl⟩)
    · rename_i reason exit id proposed hp
      simp only [beq_iff_eq] at hm
      subst hm
      simp only [hp] at h
      cases h
      rw [tracked_bootstrappedFacts]
      exact .bootstrapDrained hp
    · cases hm

theorem onBootstrapFailed_branch {s : State} {startId : String} {error : Thrown} {payload : WorkerStartPayload}
    {r : Reduction} (h : onBootstrapFailed s startId error payload = .ok r) :
    Branch s (.bootstrapFailed startId error payload) r := by
  unfold onBootstrapFailed at h
  cases hm : matchesBootstrap s startId with
  | false =>
    simp only [hm] at h
    cases h
    exact .inl ⟨hm, rfl, rfl⟩
  | true =>
    simp only [hm] at h
    unfold matchesBootstrap at hm
    split at hm
    · rename_i id proposed hp
      simp only [beq_iff_eq] at hm
      subst hm
      simp only [hp] at h
      exact .inr (.bootstrapFailed hp (failure_fatal (.bootstrap error payload) rfl h))
    · rename_i reason exit id proposed hp
      simp only [beq_iff_eq] at hm
      subst hm
      simp only [hp] at h
      cases h
      refine .inr ?_
      simp only [finishDrainingOperation, hp]
      exact .operationDrained hp (.inl ⟨_, _, _, _, rfl, rfl⟩)
    · cases hm

theorem tracked_handleReady (s : State) : tracked (handleReady s) = [] := by
  unfold handleReady
  split
  · rfl
  · rfl
  · split <;> rfl

theorem onActivationSucceeded_branch (s : State) (startId record : String) (diagnostics : List String) :
    Branch s (.activationSucceeded startId record diagnostics)
      (onActivationSucceeded s startId record diagnostics) := by
  unfold onActivationSucceeded
  cases hm : matchesActivation s startId record with
  | false => exact .inl ⟨hm, rfl, rfl⟩
  | true =>
    refine .inr ?_
    rw [if_neg (by simp), tracked_append, tracked_bootstrapDiagnostics, tracked_handleReady]
    unfold matchesActivation at hm
    split at hm
    · rename_i id turn hp
      simp only [Bool.and_eq_true, beq_iff_eq] at hm
      obtain ⟨rfl, rfl⟩ := hm
      simp only [hp]
      exact .activated hp
    · rename_i reason exit id turn hp
      simp only [Bool.and_eq_true, beq_iff_eq] at hm
      obtain ⟨rfl, rfl⟩ := hm
      simp only [hp]
      exact .activationDrained hp
    · cases hm

theorem activationFailed_branch {s : State} {startId record : String} {error : Thrown} {r : Reduction}
    (h : onOperationFailed s (matchesActivation s startId record) error = .ok r) :
    Branch s (.activationFailed startId record error) r := by
  unfold onOperationFailed at h
  cases hm : matchesActivation s startId record with
  | false =>
    simp only [hm] at h
    cases h
    exact .inl ⟨hm, rfl, rfl⟩
  | true =>
    simp only [hm] at h
    refine .inr ?_
    unfold matchesActivation at hm
    split at hm
    · rename_i id turn hp
      simp only [Bool.and_eq_true, beq_iff_eq] at hm
      obtain ⟨rfl, rfl⟩ := hm
      simp only [hp] at h
      exact .activationFailed hp (failure_dispatch h)
    · rename_i reason exit id turn hp
      simp only [Bool.and_eq_true, beq_iff_eq] at hm
      obtain ⟨rfl, rfl⟩ := hm
      simp only [hp] at h
      cases h
      simp only [finishDrainingOperation, hp]
      exact .operationDrained hp (.inr (.inl ⟨_, _, _, rfl, rfl⟩))
    · cases hm

theorem turnDefect_branch {s : State} {record : String} {error : Thrown} {r : Reduction}
    (h : onOperationFailed s (matchesTurn s record) error = .ok r) : Branch s (.turnDefect record error) r := by
  unfold onOperationFailed at h
  cases hm : matchesTurn s record with
  | false =>
    simp only [hm] at h
    cases h
    exact .inl ⟨hm, rfl, rfl⟩
  | true =>
    simp only [hm] at h
    refine .inr ?_
    unfold matchesTurn at hm
    split at hm
    · rename_i id turn hp
      simp only [beq_iff_eq] at hm
      subst hm
      simp only [hp] at h
      exact .turnDefect hp (failure_dispatch h)
    · rename_i reason exit turn hp
      simp only [beq_iff_eq] at hm
      subst hm
      simp only [hp] at h
      cases h
      simp only [finishDrainingOperation, hp]
      exact .operationDrained hp (.inr (.inr ⟨_, _, rfl, rfl⟩))
    · cases hm

theorem tracked_consumed (items : List DeliveredInput) (info : Option Json) :
    tracked (items.map fun d => inputConsumedFact d.inputId d.sequence (.delivered d.deliveryMode) info) =
      items.map fun d => inputConsumedFact d.inputId d.sequence (.delivered d.deliveryMode) info := by
  simp [tracked, List.filter_eq_self, inputConsumedFact, Output.tracked]

theorem onInputsDelivered_branch (s : State) (headSequence : Nat) (delivered : List DeliveredInput)
    (info : Option Json) :
    Branch s (.inputsDelivered headSequence delivered info) (onInputsDelivered s headSequence delivered info) := by
  have hcore : (onInputsDelivered s headSequence delivered info).state.core =
      (onInputsDelivered s.core headSequence delivered info).state := by
    unfold onInputsDelivered
    split <;> simp_all [State.core]
  have hout : tracked (onInputsDelivered s headSequence delivered info).outputs =
      (onInputsDelivered s.core headSequence delivered info).outputs := by
    unfold onInputsDelivered
    split <;> simp_all [tracked_consumed]
  cases hm : deliveryMatches s.core headSequence with
  | false =>
    refine .inl ⟨hm, ?_⟩
    rw [hout, hcore]
    have hi : s.core.deliveryHeadSequence != some headSequence ||
        (s.core.inputQueue.head?.map (·.sequence)) != some headSequence := by
      simp only [deliveryMatches, Bool.and_eq_false_iff] at hm
      simpa [bne] using hm
    unfold onInputsDelivered
    rw [if_pos hi]
    exact ⟨rfl, rfl⟩
  | true =>
    rw [Branch, hout, hcore]
    exact .inr (.delivered hm)

theorem onInputDeliveryFailed_branch {s : State} {headSequence : Nat} {error : Thrown} {r : Reduction}
    (h : onInputDeliveryFailed s headSequence error = .ok r) :
    Branch s (.inputDeliveryFailed headSequence error) r := by
  unfold onInputDeliveryFailed at h
  split at h
  · rename_i hd
    cases h
    exact .inl ⟨by simpa [Ignored] using hd, rfl, rfl⟩
  · rename_i hd
    have hd : s.deliveryHeadSequence = some headSequence := by simpa using hd
    refine .inr ?_
    split at h
    · rename_i reason exit operation hp
      cases h
      exact .deliveryDrained hd hp
    · rename_i hp
      exact .deliveryFailed hd hp (failure_dispatch h)

theorem onCleanupSucceeded_branch (s : State) : Branch s .cleanupSucceeded (onCleanupSucceeded s) := by
  unfold onCleanupSucceeded
  split
  · rename_i reason exit hp
    have hc : s.core.phase.cleaningResources = true := by simp [hp, Phase.cleaningResources]
    split
    · rename_i fatal hf
      rw [Branch, (finishFatal_core s fatal).1, (finishFatal_core s fatal).2]
      exact .inr (.cleanedFatal hc hf)
    · rename_i hf
      refine .inr ?_
      cases exit <;> exact .cleaned hc hf
  · rename_i hp
    refine .inl ⟨?_, rfl, rfl⟩
    unfold Ignored Phase.cleaningResources
    simp only [core_phase]

theorem onCleanupFailed_branch {s : State} {error : Thrown} {r : Reduction} (h : onCleanupFailed s error = .ok r) :
    Branch s (.cleanupFailed error) r := by
  unfold onCleanupFailed at h
  split at h
  · rename_i reason exit hp
    exact .inr (.cleanupFailed (by simp [hp, Phase.cleaningResources]) (failure_cleanup s.session h))
  · rename_i hp
    cases h
    refine .inl ⟨?_, rfl, rfl⟩
    unfold Ignored Phase.cleaningResources
    simp only [core_phase]

/-! ## A completed turn -/

theorem removeApplied_tracked (queue : List InputItem) (last : Nat) (applied : List AppliedTargetedInput) :
    tracked (removeApplied queue last applied).2.2 = (removeApplied queue last applied).2.2 := by
  fun_induction removeApplied queue last applied with
  | case1 => rfl
  | case2 => rfl
  | case3 last item applied head rest hm queue' last' outputs heq ih =>
    rw [heq] at ih
    simpa [inputConsumedFact, Output.tracked] using ih
  | case4 => rfl

theorem turnDone_core (s : State) (result : SelectedTurnExecutionResult) :
    (turnDone s result).state.core = (turnDone s.core result).state ∧
      tracked (turnDone s result).outputs = (turnDone s.core result).outputs := by
  have hf : (finishDrainingOperation s).core = finishDrainingOperation s.core := by
    unfold finishDrainingOperation
    split <;> simp_all [State.core]
  have ha : ∀ t : State, (removeAppliedTargeted t result.appliedTargetedInputs).state.core =
      (removeAppliedTargeted t.core result.appliedTargetedInputs).state := fun _ => rfl
  refine ⟨?_, ?_⟩
  · unfold turnDone
    rw [← hf]
    rfl
  · unfold turnDone
    rw [← hf]
    exact removeApplied_tracked _ _ _

theorem publishTerminal_quiet {s next : State} {point : SnapshotPoint} {record : String}
    {pending : PendingTerminal} {r : Reduction} (hs : s.session = none)
    (h : publishTerminal s next point record pending = .ok r) : r = ⟨next, []⟩ := by
  unfold publishTerminal at h
  simp only [hs] at h
  cases h
  rfl

/-- Publishing a terminal fact awaits its acknowledgement or takes its snapshot. -/
theorem publishTerminal_cases {s next : State} {point : SnapshotPoint} {record : String}
    {pending : PendingTerminal} {r : Reduction} (h : publishTerminal s next point record pending = .ok r) :
    s.session = none ∧ r = ⟨next, []⟩ ∨
      s.session.map (·.kind) = some .automatic ∧ tracked r.outputs = [pending.output] ∧
        r.state.core = next.core.awaiting pending ∨
      s.session.map (·.kind) = some .llm ∧ next.publication = .none ∧
        (∃ src, tracked r.outputs = [.command (.uploadSnapshot ⟨point, some record, true⟩ src)]) ∧
        r.state.core = { next.core with publication := .terminalSnapshot point record pending } := by
  unfold publishTerminal at h
  split at h
  · rename_i hs
    cases h
    exact .inl ⟨hs, rfl⟩
  · rename_i session hs
    split at h
    · rename_i hk
      cases h
      exact .inr (.inl ⟨by simp [hs, hk], publish_core next pending⟩)
    · rename_i hk
      split at h
      · obtain ⟨hn, hst, ho⟩ := beginSnapshot_ok h
        refine .inr (.inr ⟨by simp [hs, hk], hn, ⟨sessionSnapshotSource session, ?_⟩, ?_⟩)
        · rw [ho]
          rfl
        · rw [hst]
          rfl
      · cases h

theorem turnPublished_branch {s : State} {record : String} {result : SelectedTurnExecutionResult}
    {pending : PendingTerminal} {published : Reduction} (hm : matchesTurn s record = true)
    (hr : Reports s.core result.result pending)
    (h : publishTerminal s (turnDone s result).state result.result.point record pending = .ok published) :
    Branch s (.turnCompleted record result)
      ⟨published.state, (turnDone s result).outputs ++ published.outputs⟩ := by
  refine .inr ?_
  obtain ⟨hc, ho⟩ := turnDone_core s result
  rw [tracked_append, ho]
  have hpub : (turnDone s result).state.publication = s.publication := by
    unfold turnDone finishDrainingOperation
    split <;> rfl
  rcases publishTerminal_cases h with ⟨hs, rfl⟩ | ⟨hk, hout, hst⟩ | ⟨hk, hn, ⟨src, hout⟩, hst⟩
  · rw [tracked_nil, List.append_nil, hc]
    exact .turnQuiet hm (.inr hs)
  · rw [hout, hst, hc]
    exact .turnPublished hm hr hk
  · rw [hout, hst, hc]
    exact .turnSnapshot hm hr hk (hpub ▸ hn)

theorem onTurnCompleted_branch {s : State} {record : String} {result : SelectedTurnExecutionResult}
    {r : Reduction} (h : onTurnCompleted s record result = .ok r) : Branch s (.turnCompleted record result) r := by
  unfold onTurnCompleted at h
  cases hm : matchesTurn s record with
  | false =>
    simp only [hm] at h
    cases h
    exact .inl ⟨hm, rfl, rfl⟩
  | true =>
    simp only [hm] at h
    cases hres : result.result with
    | parked reason =>
      simp only [hres] at h
      cases h
      obtain ⟨hc, ho⟩ := turnDone_core s result
      refine .inr ?_
      rw [tracked_append, ho, hc, show tracked [.fact (.lifecycleParked _)] = [] from rfl, List.append_nil]
      exact .turnQuiet hm (.inl ⟨reason, hres⟩)
    | outcome turnId outcome params info =>
      simp only [hres] at h
      obtain ⟨published, hp, h⟩ := ok_of_step h
      cases h
      exact turnPublished_branch hm (by rw [hres]; rfl) (by rw [hres]; exact hp)
    | failed failure =>
      simp only [hres] at h
      obtain ⟨pending, hf, h⟩ := ok_of_step h
      obtain ⟨published, hp, h⟩ := ok_of_step h
      cases h
      exact turnPublished_branch hm (by rw [hres]; exact hf) (by rw [hres]; exact hp)

/-! ## Snapshots, timers and credentials -/

theorem cleanResources_ok {s : State} {publication : Publication} {thrown : String} {r : Reduction}
    (h : cleanResources s publication thrown = .ok r) :
    ∃ reason exit, s.phase = .cleaning reason exit .publication ∧
      r = ⟨{ s with phase := .cleaning reason exit .resources, publication := publication },
        [.command .cleanup]⟩ := by
  unfold cleanResources at h
  split at h
  · rename_i reason exit hp
    cases h
    exact ⟨reason, exit, hp, rfl⟩
  · cases h

theorem mandatorySnapshot_branch {s : State} {point : SnapshotPoint} {record : String}
    {terminal : PendingTerminal} {error : Thrown} {r : Reduction}
    (hp : s.publication = .terminalSnapshot point record terminal)
    (h : failureOutputs { s with publication := .none }
      (.mandatorySnapshot error point terminal.correlation (failureContext s)) = .ok r) :
    Branch s (.snapshotFailed point (some record) error) r := by
  have hs := tracked_said
    (normalizeWorkerFailure (.mandatorySnapshot error point terminal.correlation (failureContext s)))
  unfold failureOutputs at h
  simp only [normalizeWorkerFailure] at h hs
  cases h
  refine .inr ?_
  rw [tracked_append, hs]
  exact .terminalUploadFailed hp rfl

/-- The completion event of a snapshot, with its error if it failed. -/
def snapshotCompletion (point : SnapshotPoint) (record : Option String) : Option Thrown → Event
  | none => .snapshotSucceeded point record
  | some error => .snapshotFailed point record error

theorem snapshotCompletion_completes (point : SnapshotPoint) (record : Option String) (error : Option Thrown) :
    (snapshotCompletion point record error).completesSnapshot point record = true := by
  cases error <;> simp [snapshotCompletion, Event.completesSnapshot]

theorem onSnapshotCompleted_branch (s : State) (point : SnapshotPoint) (record : Option String)
    (error : Option Thrown) {r : Reduction} (h : onSnapshotCompleted s point record error = .ok r) :
    Branch s (snapshotCompletion point record error) r := by
  have hcomp := snapshotCompletion_completes point record error
  unfold onSnapshotCompleted at h
  cases hm : snapshotMatches s point record with
  | false =>
    simp only [hm] at h
    cases h
    cases error <;> exact .inl ⟨hm, rfl, rfl⟩
  | true =>
    simp only [hm] at h
    unfold snapshotMatches at hm
    cases hp : s.publication with
    | none => simp [hp, Publication.snapshot] at hm
    | terminalPendingAck terminal => simp [hp, Publication.snapshot] at hm
    | fatalPendingCleanup fatal => simp [hp, Publication.snapshot] at hm
    | readySnapshot =>
      simp only [hp] at h
      cases h
      simp only [hp, Publication.snapshot, Bool.and_eq_true, beq_iff_eq] at hm
      obtain ⟨rfl, rfl⟩ := hm
      exact .inr (.readyUploaded hp hcomp)
    | terminalSnapshot point' record' terminal =>
      simp only [hp, Publication.snapshot, Bool.and_eq_true, beq_iff_eq] at hm
      obtain ⟨rfl, rfl⟩ := hm
      simp only [hp] at h
      cases error with
      | none =>
        cases h
        rw [Branch, (publish_core s terminal).1, (publish_core s terminal).2]
        exact .inr (.terminalUploaded hp)
      | some error => exact mandatorySnapshot_branch hp h
    | cleanupSnapshot =>
      simp only [hp, Publication.snapshot, Bool.and_eq_true, beq_iff_eq] at hm
      obtain ⟨rfl, rfl⟩ := hm
      rw [if_neg (by simp), hp] at h
      simp only at h
      split at h
      · rename_i reason exit error hph
        exact .inr (.cleanupUploadFailed hp hph (failure_cleanup s.session h))
      · rename_i error _ _ hnot
        obtain ⟨reason, exit, hph, rfl⟩ := cleanResources_ok h
        cases error with
        | none => exact .inr (.cleanupUploaded hp hph)
        | some error => exact absurd rfl (hnot _ _ _ hph)
    | fatalSnapshot fatal after =>
      simp only [hp, Publication.snapshot, Bool.and_eq_true, beq_iff_eq] at hm
      obtain ⟨rfl, rfl⟩ := hm
      cases after with
      | exit =>
        simp only [hp] at h
        cases h
        rw [Branch, (finishFatal_core s fatal).1, (finishFatal_core s fatal).2]
        exact .inr (.fatalUploaded hp hcomp)
      | cleanup =>
        simp only [hp] at h
        obtain ⟨reason, exit, hph, rfl⟩ := cleanResources_ok h
        exact .inr (.fatalCleaning hp hph hcomp)

theorem onTimerFired_branch (s : State) (name : TimerName) (correlation : String) :
    Branch s (.timerFired name correlation) (onTimerFired s name correlation) := by
  unfold onTimerFired
  split
  · rename_i hne
    refine .inl ⟨?_, rfl, rfl⟩
    rintro rfl
    simpa [Timers.get] using hne
  · rename_i heq
    have heq : s.timers.get name = some correlation := by simpa using heq
    cases name with
    | heartbeat =>
      simp only
      split <;> exact .inl ⟨by simp [Ignored], by simp [armTimer, heartbeatFact, Output.tracked], rfl⟩
    | acceptanceRetry =>
      simp only
      split <;> exact .inl ⟨by simp [Ignored], by simp [armTimer, Output.tracked], rfl⟩
    | credentialPoll =>
      simp only
      split
      · split <;> exact .inl ⟨by simp [Ignored], rfl, rfl⟩
      · exact .inl ⟨by simp [Ignored], rfl, rfl⟩
    | terminalAck =>
      simp only
      split
      · rename_i terminal hp
        split
        · rename_i hid
          rw [Branch, (publish_core _ terminal).1, (publish_core _ terminal).2]
          exact .inr (.retried hp heq (by simpa using hid))
        · rename_i hid
          exact .inr (.retryLapsed (by simpa [awaitsAck, hp] using hid) heq)
      · rename_i hp
        refine .inr (.retryLapsed ?_ heq)
        unfold awaitsAck
        split
        · exact absurd ‹_› (hp _)
        · rfl

theorem onCredentialSampled_quiet (s : State) (providerId : String) (values : Json) (fingerprint : String) :
    tracked (onCredentialSampled s providerId values fingerprint).outputs = [] ∧
      (onCredentialSampled s providerId values fingerprint).state.core = s.core := by
  unfold onCredentialSampled
  split
  · exact ⟨rfl, rfl⟩
  · split
    · exact ⟨rfl, rfl⟩
    · split <;> exact ⟨rfl, rfl⟩

theorem onCredentialSampleFailed_quiet (s : State) (providerId : String) (error : Thrown) :
    tracked (onCredentialSampleFailed s providerId error).outputs = [] ∧
      (onCredentialSampleFailed s providerId error).state.core = s.core := by
  unfold onCredentialSampleFailed
  split
  · exact ⟨rfl, rfl⟩
  · split <;> exact ⟨rfl, rfl⟩

/-- Every branch of the switch that does not throw ignores its event or handles it. -/
theorem handle_branch {s : State} {e : Event} {r : Reduction} (h : handle s e = .ok r) : Branch s e r := by
  cases e with
  | runtimeStarted => cases h; exact onRuntimeStarted_branch s
  | transportConnected => cases h; exact onTransportConnected_branch s
  | transportFailed error => exact transportFailed_branch h
  | serverMessage message => cases h; exact onServerMessage_branch s message
  | stopRequested reason exit => cases h; exact onStopRequested_branch rfl reason exit id
  | operatorAbortObserved => cases h; exact .inl ⟨trivial, rfl, rfl⟩
  | piTurnStarted => cases h; exact .inl ⟨trivial, rfl, rfl⟩
  | piTurnEnded => cases h; exact .inl ⟨trivial, rfl, rfl⟩
  | sessionTainted reason => cases h; exact onSessionTainted_branch s reason
  | timerFired name correlation => cases h; exact onTimerFired_branch s name correlation
  | bootstrapSucceeded startId completion => exact onBootstrapSucceeded_branch h
  | bootstrapFailed startId error payload => exact onBootstrapFailed_branch h
  | activationSucceeded startId record diagnostics =>
    cases h; exact onActivationSucceeded_branch s startId record diagnostics
  | activationFailed startId record error => exact activationFailed_branch h
  | inputsDelivered headSequence delivered info =>
    cases h; exact onInputsDelivered_branch s headSequence delivered info
  | inputDeliveryFailed headSequence error => exact onInputDeliveryFailed_branch h
  | turnCompleted record result => exact onTurnCompleted_branch h
  | turnDefect record error => exact turnDefect_branch h
  | snapshotSucceeded point record =>
    exact onSnapshotCompleted_branch s point record none h
  | snapshotFailed point record error =>
    exact onSnapshotCompleted_branch s point record (some error) h
  | credentialSampled providerId values fingerprint =>
    cases h; exact .inl ⟨trivial, onCredentialSampled_quiet s providerId values fingerprint⟩
  | credentialSampleFailed providerId error =>
    cases h; exact .inl ⟨trivial, onCredentialSampleFailed_quiet s providerId error⟩
  | cleanupSucceeded => cases h; exact onCleanupSucceeded_branch s
  | cleanupFailed error => exact onCleanupFailed_branch h
  | invariantFailed error => exact .inr (.invariantFailed (failure_dispatch h))

end Leitwerk.Worker
