import Leitwerk.Worker.Execution
/-!
# Terminal facts are retained until they are acknowledged

"The worker sends `worker.turn_outcome` or `worker.turn_failed`, remains busy,
and retries the same correlated fact after timeout or reconnect"
(`docs/server-worker-lifecycle.md`). Two steps break this: a stop request
cancels the retry timer of an awaited fact, and a failed mandatory snapshot
reports a failed turn without retaining it (`losesTerminal`).
`terminal_retained` proves it for every run without those steps.
-/

namespace Leitwerk.Worker

open Runs

/-- The state keeps `fact` as the awaited terminal, with its retry timer armed. -/
def Retains (s : State) (fact : TerminalFact) : Prop :=
  match s.publication with
  | .terminalPendingAck terminal =>
    terminal.fact = fact ∧ terminal.correlation.turnRecordId = fact.turnRecordId ∧
      s.timers.terminalAck = some fact.turnRecordId
  | _ => False

instance (s : State) (fact : TerminalFact) : Decidable (Retains s fact) := by
  unfold Retains
  split <;> infer_instance

/-- The state keeps `fact` and answers a firing of its timer, and a reconnect,
with exactly that fact. -/
def Replays (s : State) (fact : TerminalFact) : Prop :=
  Retains s fact ∧ terminals (step s .transportConnected).outputs = [fact] ∧
    ∀ correlation, s.timers.terminalAck = some correlation →
      terminals (step s (.timerFired .terminalAck correlation)).outputs = [fact]

/-- Every fact a history reported and no later event acknowledged is still
replayed, unless the worker has exited. -/
def TerminalsRetained (h : Hist Event Output) (t : State) : Prop :=
  ∀ pre e os post fact, h = pre ++ (e, os) :: post → .fact (.terminal fact) ∈ os →
    .serverMessage (.turnTerminalRecorded fact.turnRecordId) ∉ events post →
    t.phase = .exited ∨ Replays t fact

/-- The steps that lose a terminal fact: a stop request that takes effect while
a fact awaits its acknowledgement, and the failure of a mandatory snapshot. -/
def losesTerminal (s : State) (e : Event) : Bool :=
  s.phase != .exited &&
    match s.publication with
    | .terminalPendingAck _ => e.isStop && !s.phase.stopping
    | .terminalSnapshot point record _ =>
      match e with
      | .snapshotFailed p r _ => p == point && r == some record
      | _ => false
    | _ => false

/-! ## What keeps a fact -/

/-- A last phase that retains the fact, or the end. -/
def Keeps (fact : TerminalFact) (s : State) : Prop :=
  s.phase = .exited ∨ s.phase.over = true ∧ Retains s fact

section
variable {s t : State} {e : Event} {os : List Output} {fact : TerminalFact}

theorem retains_iff : Retains s fact ↔ ∃ terminal, s.publication = .terminalPendingAck terminal ∧
    terminal.fact = fact ∧ terminal.correlation.turnRecordId = fact.turnRecordId ∧
      s.timers.terminalAck = some fact.turnRecordId := by
  unfold Retains
  constructor
  · intro h
    split at h
    · rename_i terminal hp
      exact ⟨terminal, hp, h⟩
    · cases h
  · rintro ⟨terminal, hp, h⟩
    rw [hp]
    exact h

theorem awaiting_retains {terminal : PendingTerminal}
    (hid : terminal.fact.turnRecordId = terminal.correlation.turnRecordId) :
    Retains (s.awaiting terminal) terminal.fact :=
  ⟨rfl, hid.symm, by simp [State.awaiting, Timers.set, hid]⟩

/-- A state that has nothing to publish but an awaited fact does not advance. -/
theorem advanced_awaits {terminal : PendingTerminal} (hp : s.publication = .terminalPendingAck terminal)
    (h : Advanced s os t) : os = [] ∧ t = s := by
  cases h with
  | rest _ => exact ⟨rfl, rfl⟩
  | activate _ hn _ => rw [hp] at hn; cases hn
  | ready _ hn _ => rw [hp] at hn; cases hn
  | cleanupSnapshot _ _ hn => rw [hp] at hn; cases hn
  | cleanup _ _ hn => rw [hp] at hn; cases hn
  | ignore hh _ _ => simp [handlesInputs, hp] at hh
  | deliver hh _ => simp [handlesInputs, hp] at hh
  | execute hh _ _ _ => simp [handlesInputs, hp] at hh

theorem advanced_keeps (hk : Keeps fact s) (h : Advanced s os t) : Keeps fact t := by
  rcases hk with hx | ⟨ho, hr⟩
  · obtain ⟨_, rfl⟩ := advanced_exits hx h
    exact .inl hx
  · obtain ⟨terminal, hp, _⟩ := retains_iff.1 hr
    obtain ⟨_, rfl⟩ := advanced_awaits hp h
    exact .inr ⟨ho, hr⟩

/-- A fatal failure of a worker with an active publication ends it at once. -/
theorem fatal_exits {source : Option SnapshotSource} (hn : s.publication ≠ .none) (h : Fatal s source os t) :
    t.phase = .exited := by
  cases h with
  | snapshot _ hp => exact absurd hp hn
  | exit _ => rfl

theorem dispatch_keeps_terminal (ho : s.phase.over = true) (hr : Retains s fact) (h : Dispatch s os t) :
    Keeps fact t := by
  cases h with
  | parked _ => exact .inr ⟨ho, hr⟩
  | fatal _ hf =>
    obtain ⟨terminal, hp, _⟩ := retains_iff.1 hr
    exact .inl (fatal_exits (by simp [hp]) hf)

/-- Outside the steps that lose a fact, only its acknowledgement releases it. -/
theorem handled_keeps (ho : s.phase.over = true) (hr : Retains s fact) (hk : losesTerminal s e = false)
    (hx : s.phase ≠ .exited) (h : Handled s e os t) :
    Keeps fact t ∨ e = .serverMessage (.turnTerminalRecorded fact.turnRecordId) := by
  obtain ⟨terminal, hp, rfl, hid, htimer⟩ := retains_iff.1 hr
  obtain ⟨hstart, hexec, hacc, hbefore, _⟩ := Phase.over_spec ho
  have hquiet : ∀ {u : State}, u.phase.over = true → u.publication = s.publication →
      u.timers.terminalAck = s.timers.terminalAck → Keeps terminal.fact u := by
    intro u hu hpub ht
    exact .inr ⟨hu, retains_iff.2 ⟨terminal, hpub ▸ hp, rfl, hid, ht ▸ htimer⟩⟩
  have hturn : ∀ {record}, matchesTurn s record = true → False := by
    intro record hm
    rw [matchesTurn_iff.1 hm] at hexec
    cases hexec
  cases h with
  | started h => rw [h] at hbefore; cases hbefore
  | reconnected h =>
    rw [hp] at h
    cases h
    exact .inl (.inr ⟨ho, awaiting_retains hid.symm⟩)
  | transportLost => exact .inl (.inl rfl)
  | stopped he hs =>
    simp [losesTerminal, hp, he, hs, hx] at hk
  | tainted => exact .inl (hquiet ho rfl rfl)
  | start h => rw [h] at hbefore; cases hbefore
  | batch _ _ =>
    refine .inl (hquiet ?_ ?_ ?_)
    all_goals
      unfold onInputBatch
      split <;> first | exact ho | rfl
  | acceptedEarly h => rw [h] at hbefore; cases hbefore
  | accepted h _ => rw [h] at hbefore; cases hbefore
  | acknowledged h =>
    rw [hp] at h
    cases h
    exact .inr (by rw [hid])
  | bootstrapDrained h =>
    refine .inl (hquiet ?_ rfl rfl)
    simp [bootstrapped, h]
    rfl
  | bootstrapReadied h _ => rw [h] at hbefore; cases hbefore
  | bootstrapFailed h _ => rw [h] at hbefore; cases hbefore
  | activated h => rw [h] at hbefore; cases hbefore
  | activationDrained _ => exact .inl (hquiet rfl rfl rfl)
  | operationDrained _ _ => exact .inl (hquiet rfl rfl rfl)
  | activationFailed h _ => rw [h] at hbefore; cases hbefore
  | turnDefect h _ => rw [h] at hexec; cases hexec
  | delivered _ =>
    refine .inl (hquiet ?_ ?_ ?_)
    all_goals
      unfold onInputsDelivered
      split <;> first | exact ho | rfl
  | deliveryDrained _ _ => exact .inl (hquiet ho rfl rfl)
  | deliveryFailed _ _ hd =>
    exact .inl (dispatch_keeps_terminal (s := { s with deliveryHeadSequence := none }) ho hr hd)
  | turnQuiet hm _ => exact (hturn hm).elim
  | turnPublished hm _ _ => exact (hturn hm).elim
  | turnSnapshot hm _ _ _ => exact (hturn hm).elim
  | readyUploaded h _ => rw [hp] at h; cases h
  | terminalUploaded h => rw [hp] at h; cases h
  | terminalUploadFailed h _ => rw [hp] at h; cases h
  | cleanupUploaded h _ => rw [hp] at h; cases h
  | cleanupUploadFailed h _ _ => rw [hp] at h; cases h
  | fatalUploaded h _ => rw [hp] at h; cases h
  | fatalCleaning h _ _ => rw [hp] at h; cases h
  | retried h _ _ =>
    rw [hp] at h
    cases h
    exact .inl (.inr ⟨ho, awaiting_retains hid.symm⟩)
  | retryLapsed h ht =>
    rw [htimer] at ht
    cases ht
    simp [awaitsAck, hp, hid] at h
  | cleanedFatal _ h => rw [hp] at h; cases h
  | cleaned _ _ => exact .inl (.inl rfl)
  | cleanupFailed _ hf => exact .inl (.inl (fatal_exits (by simp [hp]) hf))
  | invariantFailed hd => exact .inl (dispatch_keeps_terminal ho hr hd)

theorem coreStep_keeps (hk : Keeps fact s) (hl : losesTerminal s e = false) (h : CoreStep s e os t) :
    Keeps fact t ∨ e = .serverMessage (.turnTerminalRecorded fact.turnRecordId) := by
  cases h with
  | exited _ => exact .inl hk
  | thrown _ _ => exact .inl hk
  | ignored _ _ ha => exact .inl (advanced_keeps hk ha)
  | handled hx hh ha =>
    rcases hk with hk | ⟨ho, hr⟩
    · exact absurd hk hx
    · rcases handled_keeps ho hr hl hx hh with hk' | hack
      · exact .inl (advanced_keeps hk' ha)
      · exact .inr hack

theorem dispatch_reports (h : Dispatch s os t) : terminals os = [] := by
  cases h with
  | parked _ => rfl
  | fatal _ hf => cases hf <;> rfl

theorem advanced_reports (h : Advanced s os t) : terminals os = [] := by
  induction h with
  | ignore _ _ _ ih => rw [terminals_append, (silent_ignored _ _).2.2, ih]; rfl
  | ready _ _ _ ih => exact ih
  | _ => rfl

/-- Whatever reports a fact, outside the steps that lose one, retains it. -/
theorem handled_reports {acc done : String → String → Prop} {out : List Output} (hi : ExecInv acc done out s)
    (hl : losesTerminal s e = false) (hx : s.phase ≠ .exited) (h : Handled s e os t)
    (hf : fact ∈ terminals os) : Keeps fact t := by
  have hresend : ∀ {terminal}, s.publication = .terminalPendingAck terminal →
      fact ∈ terminals [terminal.output] → Keeps fact (s.awaiting terminal) := by
    intro terminal hp hf
    obtain ⟨_, hid, _⟩ := hi.awaiting _ hp
    have hf : fact = terminal.fact := by simpa [mem_terminals, PendingTerminal.output] using hf
    subst hf
    exact .inr ⟨hi.over_of_terminal (by simp [hp, Publication.terminal?]), awaiting_retains hid⟩
  cases h with
  | reconnected hp => exact hresend hp hf
  | retried hp _ _ => exact hresend hp hf
  | @turnPublished record result pending hm hr _ =>
    rw [terminals_append, (silent_turnDone _ _).2.2] at hf
    have hf : fact = pending.fact := by simpa [mem_terminals, PendingTerminal.output] using hf
    subst hf
    exact .inr ⟨turnDone_phase s result hm, awaiting_retains (reports_record hr).2⟩
  | @terminalUploaded point record terminal hp =>
    obtain ⟨_, hid, _⟩ := hi.snapshot _ _ _ hp
    have hf : fact = terminal.fact := by simpa [mem_terminals, PendingTerminal.output] using hf
    subst hf
    exact .inr ⟨hi.over_of_terminal (by simp [hp, Publication.terminal?]), awaiting_retains hid⟩
  | terminalUploadFailed hp _ => simp [losesTerminal, hp, hx] at hl
  | bootstrapReadied _ hpub => rcases hpub with ⟨_, rfl⟩ | ⟨_, _, rfl⟩ <;> cases hf
  | bootstrapFailed _ h => cases h <;> cases hf
  | activationFailed _ hd => rw [dispatch_reports hd] at hf; cases hf
  | turnDefect _ hd => rw [dispatch_reports hd] at hf; cases hf
  | delivered _ => rw [(silent_delivered _ _ _ _).2.2] at hf; cases hf
  | deliveryFailed _ _ hd => rw [dispatch_reports hd] at hf; cases hf
  | turnQuiet _ _ => rw [(silent_turnDone _ _).2.2] at hf; cases hf
  | turnSnapshot _ _ _ _ => rw [terminals_append, (silent_turnDone _ _).2.2] at hf; cases hf
  | cleanupUploadFailed _ _ h => cases h <;> cases hf
  | cleanupFailed _ h => cases h <;> cases hf
  | invariantFailed hd => rw [dispatch_reports hd] at hf; cases hf
  | _ => cases hf

theorem coreStep_reports {acc done : String → String → Prop} {out : List Output} (hi : ExecInv acc done out s)
    (hl : losesTerminal s e = false) (h : CoreStep s e os t) (hf : fact ∈ terminals os) : Keeps fact t := by
  cases h with
  | exited _ => cases hf
  | thrown _ _ => cases hf
  | ignored _ _ ha =>
    rw [advanced_reports ha] at hf
    cases hf
  | handled hx hh ha =>
    rw [terminals_append, advanced_reports ha, List.append_nil] at hf
    exact advanced_keeps (handled_reports hi hl hx hh hf) ha

/-! ## Replay -/

theorem reconnect_replays (hx : s.phase ≠ .exited) (hr : Retains s fact)
    (h : CoreStep s .transportConnected os t) : terminals os = [fact] := by
  obtain ⟨terminal, hp, rfl, _⟩ := retains_iff.1 hr
  cases h with
  | exited h => exact absurd h hx
  | thrown _ h => cases h
  | ignored _ hi _ => exact absurd hp (hi terminal)
  | handled _ hh ha =>
    rw [terminals_append, advanced_reports ha, List.append_nil]
    cases hh with
    | reconnected h =>
      rw [hp] at h
      cases h
      rfl
    | stopped he _ => cases he
    | operationDrained _ h => rcases h with ⟨_, _, _, _, _, h⟩ | ⟨_, _, _, _, h⟩ | ⟨_, _, _, h⟩ <;> cases h
    | readyUploaded _ h => cases h
    | fatalUploaded _ h => cases h
    | fatalCleaning _ _ h => cases h

theorem timer_replays {correlation : String} (hx : s.phase ≠ .exited) (hr : Retains s fact)
    (ht : s.timers.terminalAck = some correlation)
    (h : CoreStep s (.timerFired .terminalAck correlation) os t) : terminals os = [fact] := by
  obtain ⟨terminal, hp, rfl, hid, htimer⟩ := retains_iff.1 hr
  rw [htimer] at ht
  cases ht
  cases h with
  | exited h => exact absurd h hx
  | thrown _ h => cases h
  | ignored _ hi _ => exact absurd htimer (hi rfl)
  | handled _ hh ha =>
    rw [terminals_append, advanced_reports ha, List.append_nil]
    cases hh with
    | retried h _ _ =>
      rw [hp] at h
      cases h
      rfl
    | retryLapsed h _ => simp [awaitsAck, hp, hid] at h
    | stopped he _ => cases he
    | operationDrained _ h => rcases h with ⟨_, _, _, _, _, h⟩ | ⟨_, _, _, _, h⟩ | ⟨_, _, _, h⟩ <;> cases h
    | readyUploaded _ h => cases h
    | fatalUploaded _ h => cases h
    | fatalCleaning _ _ h => cases h

/-- A state that retains a fact replays it. -/
theorem replays_of_retains (hx : s.phase ≠ .exited) (hr : Retains s fact) : Replays s fact := by
  refine ⟨hr, ?_, ?_⟩
  · rw [← terminals_tracked]
    exact reconnect_replays (s := s.core) hx hr (step_core rfl)
  · intro correlation ht
    rw [← terminals_tracked]
    exact timer_replays (s := s.core) hx hr ht (step_core rfl)

end

/-! ## The worker's runs -/

/-- In every run without the steps that lose a terminal fact, every fact that
was reported and not acknowledged is still replayed, or the worker has exited. -/
theorem terminal_retained {h : Hist Event Output} {t : State}
    (hr : Run (Guard WorkerStep fun s e => (!losesTerminal s e) = true) createInitialWorkerRuntimeState h t) :
    TerminalsRetained h t := by
  intro pre e os post fact heq hf hun
  obtain ⟨a, b, hpre, ⟨hst, hl⟩, hpost⟩ := hr.split heq
  rw [Bool.not_eq_true'] at hl
  have hb : Keeps fact b := by
    refine coreStep_reports (s := a.core) (t := b.core) (worker_exec hpre.of_guard) hl (step_core hst) ?_
    rw [terminals_tracked]
    exact mem_terminals.2 hf
  have ht := hpost.until (Keeps fact) (fun e _ => e = .serverMessage (.turnTerminalRecorded fact.turnRecordId)) hb
    (fun s e os u hk hst => coreStep_keeps (s := s.core) (t := u.core) hk
      (show losesTerminal s e = false by simpa using hst.2) (step_core hst.1))
  rcases ht with hk | ⟨x, hx, hack⟩
  · by_cases hx : t.phase = .exited
    · exact .inl hx
    · rcases hk with hk | ⟨_, hk⟩
      · exact absurd hk hx
      · exact .inr (replays_of_retains hx hk)
  · exact absurd (List.mem_map.2 ⟨x, hx, hack⟩) hun

/-- A worker that has reported the outcome of an automatic turn. -/
def demoReported : List Event := demoExecuting .automatic .active ++ [.turnCompleted "turn" demoOutcome]

/-- The reported outcome. -/
def demoFact : TerminalFact :=
  (outcomeTerminal "build" "done" "{}"
    { turnRecordId := "turn", turnType := .llm, pathType := .primary, forkPiEntryId := none,
      resultPiEntryId := none, turnResultMarkdown := none, resultSummary := none, rootEntryId := none }).fact

/-- An outcome that is reported, reconnected and not acknowledged is still replayed. -/
theorem terminal_retained_demo :
    (workerState (demoReported ++ [.transportConnected])).phase = .exited ∨
      Replays (workerState (demoReported ++ [.transportConnected])) demoFact := by
  have hr := worker_run_guarded (fun s e => !losesTerminal s e) (demoReported ++ [.transportConnected]) (by decide)
  exact terminal_retained hr (workerHistory (demoExecuting .automatic .active)) (.turnCompleted "turn" demoOutcome)
    (step (workerState (demoExecuting .automatic .active)) (.turnCompleted "turn" demoOutcome)).outputs
    [(.transportConnected, (step (workerState demoReported) .transportConnected).outputs)] demoFact
    (by decide) (by decide) (by decide)

/-- A stop request after the report cancels the retry timer of the awaited fact. -/
theorem terminal_retained_fails :
    ¬∀ h t, Run WorkerStep createInitialWorkerRuntimeState h t → TerminalsRetained h t := by
  intro H
  have h := H _ _ (worker_run (demoReported ++ [.serverMessage (.stop "operator")]))
    (workerHistory (demoExecuting .automatic .active)) (.turnCompleted "turn" demoOutcome)
    (step (workerState (demoExecuting .automatic .active)) (.turnCompleted "turn" demoOutcome)).outputs
    [(.serverMessage (.stop "operator"),
      (step (workerState demoReported) (.serverMessage (.stop "operator"))).outputs)] demoFact
    (by decide) (by decide) (by decide)
  rcases h with h | ⟨h, _⟩
  · exact absurd h (by decide)
  · exact absurd h (by decide)

end Leitwerk.Worker
