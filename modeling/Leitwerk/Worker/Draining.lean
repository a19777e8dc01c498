import Leitwerk.Worker.Outstanding
/-!
# Draining ends

A stop request drains the worker: it waits for its operation, its delivery and
its publication, and then cleans up. `draining_never_stuck`: in every run
without the steps that abandon an operation (`abandons`), whatever the state
waits for is still being worked on, and a draining worker waits for something.
So once every command has completed and the terminal fact is acknowledged, the
worker has left draining.

Each of the abandoning steps leaves a worker that waits for a command nobody
will answer again: `draining_stuck`.
-/

namespace Leitwerk.Worker

open Runs

/-- Everything the state waits for is still running; a draining state waits for
a command or an acknowledgement; and with no command running and no
acknowledgement outstanding the worker does not drain. -/
def NeverStuck (x : Env) : Prop :=
  (∀ key ∈ x.state.awaits, key ∈ x.waiting) ∧
    (∀ reason exit operation, x.state.phase = .draining reason exit operation →
      (∃ key ∈ x.state.awaits, key ∈ x.waiting) ∨ ∃ terminal, x.state.publication = .terminalPendingAck terminal) ∧
    (x.waiting = [] → (∀ terminal, x.state.publication ≠ .terminalPendingAck terminal) →
      ∀ reason exit operation, x.state.phase ≠ .draining reason exit operation)

/-- The invariant: the publication fits the phase, what is awaited is running,
and a draining worker has something left to do. -/
structure EnvInv (x : Env) : Prop where
  fits : Fits x.state
  awaited : ∀ key ∈ x.state.awaits, key ∈ x.waiting
  working : noActiveWork x.state = false

theorem advanced_working {s t : State} {os : List Output} (h : Advanced s os t) : noActiveWork t = false := by
  induction h with
  | rest h => exact h
  | activate _ _ _ => rfl
  | ready _ _ _ ih => exact ih
  | cleanupSnapshot _ _ _ => rfl
  | cleanup _ _ _ => rfl
  | ignore _ _ _ ih => exact ih
  | deliver hh _ => exact not_noActiveWork fun _ _ _ => handlesInputs_phase hh _ _ _
  | execute _ _ _ _ => rfl

theorem coreStep_working {s t : State} {e : Event} {os : List Output} (hs : noActiveWork s = false)
    (h : CoreStep s e os t) : noActiveWork t = false := by
  cases h with
  | exited _ => exact hs
  | thrown _ _ => exact hs
  | ignored _ _ ha => exact advanced_working ha
  | handled _ _ ha => exact advanced_working ha

theorem abandons_core (s : State) (e : Event) : abandons s.core e = abandons s e := by
  cases e <;> rfl

theorem env_inv_step {x y : Env} {e : Event} {os : List Output} (hi : EnvInv x) (hab : abandons x.state e = false)
    (h : CoreEnvStep x e os y) : EnvInv y := by
  obtain ⟨⟨hst, hw⟩, hadm⟩ := h
  refine ⟨coreStep_fits hi.fits hst, ?_, ?_⟩
  · intro key hk
    rw [hw]
    rcases coreStep_waits hi.fits hab hst key hk with h | ⟨h, ha⟩
    · exact List.mem_append_right _ h
    · exact List.mem_append_left _ (mem_answered (hi.awaited key h) ha)
  · exact coreStep_working hi.working hst

theorem env_inv_init : EnvInv Env.init.core :=
  ⟨init_fits, by simp [Env.init, Env.core, State.awaits, State.operationKey?, State.deliveryKey?,
    State.snapshotKey?, createInitialWorkerRuntimeState, Publication.snapshot], rfl⟩

/-- A publication in a draining worker awaits an acknowledgement or a snapshot. -/
theorem draining_publication {s : State} {reason : String} {exit : Bool} {operation : Option DrainingOperation}
    (hi : Fits s) (hp : s.phase = .draining reason exit operation) (hn : s.publication ≠ .none) :
    (∃ terminal, s.publication = .terminalPendingAck terminal) ∨ ∃ key, s.snapshotKey? = some key := by
  unfold State.snapshotKey?
  cases hpub : s.publication with
  | none => exact absurd hpub hn
  | terminalPendingAck terminal => exact .inl ⟨terminal, rfl⟩
  | fatalPendingCleanup fatal =>
    have h := hi.pendingCleanup fatal hpub
    rw [hp] at h
    cases h
  | _ => exact .inr ⟨_, rfl⟩

/-- A draining worker whose draining is not complete waits for something. -/
theorem draining_awaits {s : State} {reason : String} {exit : Bool} {operation : Option DrainingOperation}
    (hi : Fits s) (hw : noActiveWork s = false) (hp : s.phase = .draining reason exit operation) :
    (∃ key, key ∈ s.awaits) ∨ ∃ terminal, s.publication = .terminalPendingAck terminal := by
  have hx : s.phase ≠ .exited := by simp [hp]
  cases operation with
  | some operation =>
    have hop : ∃ key, s.operationKey? = some key := by
      unfold State.operationKey?
      rw [hp]
      cases operation <;> exact ⟨_, rfl⟩
    obtain ⟨key, h⟩ := hop
    exact .inl ⟨key, mem_awaits.2 ⟨hx, .inl h⟩⟩
  | none =>
    cases hd : s.deliveryHeadSequence with
    | some n =>
      have h : s.deliveryKey? = some (.deliverInputs n) := by simp [State.deliveryKey?, hd]
      exact .inl ⟨_, mem_awaits.2 ⟨hx, .inr (.inl h)⟩⟩
    | none =>
      have hn : s.publication ≠ .none := by
        intro hn
        simp [noActiveWork, hp, hd, hn] at hw
      rcases draining_publication hi hp hn with h | ⟨key, h⟩
      · exact .inr h
      · exact .inl ⟨key, mem_awaits.2 ⟨hx, .inr (.inr h)⟩⟩

theorem neverStuck_of_inv {x : Env} (hi : EnvInv x) : NeverStuck x := by
  have hwait : ∀ reason exit operation, x.state.phase = .draining reason exit operation →
      (∃ key ∈ x.state.awaits, key ∈ x.waiting) ∨ ∃ terminal, x.state.publication = .terminalPendingAck terminal := by
    intro reason exit operation hp
    rcases draining_awaits hi.fits hi.working hp with ⟨key, hk⟩ | h
    · exact .inl ⟨key, hk, hi.awaited key hk⟩
    · exact .inr h
  refine ⟨hi.awaited, hwait, ?_⟩
  intro hnone hack reason exit operation hp
  rcases hwait reason exit operation hp with ⟨key, _, hk⟩ | ⟨terminal, ht⟩
  · rw [hnone] at hk
    cases hk
  · exact hack terminal ht

/-- The core waits for the same commands. -/
theorem neverStuck_core {x : Env} (h : NeverStuck x.core) : NeverStuck x := h

/-- In every run without a step that abandons an operation, draining never deadlocks. -/
theorem draining_never_stuck {h : Hist Event Output} {x : Env}
    (hr : Run (Guard EnvStep fun x e => (!abandons x.state e) = true) Env.init h x) : NeverStuck x := by
  have hi : EnvInv x.core := by
    refine hr.inv (fun x => EnvInv x.core) env_inv_init fun a e os b hi hst => ?_
    have hab : abandons a.core.state e = false := (abandons_core a.state e).trans (by simpa using hst.2)
    exact env_inv_step hi hab (envStep_core hst.1)
  exact neverStuck_core (neverStuck_of_inv hi)

/-- A worker that is stopped while its turn executes and then loses its turn to a defect. -/
def demoDrained : List Event :=
  demoExecuting (.llm false none) .active ++ [.serverMessage (.stop "operator"), .turnDefect "turn" demoError]

/-- The drained worker cleans up: nothing is stuck. -/
theorem draining_never_stuck_demo : NeverStuck (envAfter demoDrained) :=
  draining_never_stuck (env_run_guarded (fun x e => !abandons x.state e) demoDrained (by decide))

/-- A failed activation that parks leaves the worker activating; stopped then, it
drains an activation that nobody will answer again. -/
theorem draining_stuck : ¬∀ h x, Run EnvStep Env.init h x → NeverStuck x := by
  intro H
  let es := demoActivating (.llm false none) .active ++
    [.activationFailed "start" "turn" demoError, .stopRequested "stop" true]
  have hp : (envAfter es).state.publication = .none := by decide
  have h := H _ _ (env_run es (by decide))
  exact h.2.2 (by decide) (by simp [hp]) "stop" true (some (.activation "start" "turn")) (by decide)

end Leitwerk.Worker
