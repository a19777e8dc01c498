import Leitwerk.Ipc.TurnRecorder
/-!
# An acknowledged report is settled

A worker forgets a report once it is acknowledged, so its record must not run any
more. The operation that records a report settles its record, and a settled
record stays settled; the fallback settles only the record of the current
execution, and only under the lease that owns it.
-/

namespace Leitwerk.Ipc

open Engine

variable {d : ProcessDefinition} {ctx : Context} {st st' : Store} {rid : String}

/-! ## Settled records -/

/-- The record is there and does not run. -/
def Over (st : Store) (rid : String) : Prop := ∃ r, st.turnRecords.get? rid = some r ∧ r.status ≠ .running

theorem over_of_recorded {status : TurnRecordStatus} (h : terminalWasAlreadyRecorded st rid status = true)
    (hs : status ≠ .running) : Over st rid := by
  obtain ⟨r, hr, hstatus⟩ := (Option.any_eq_true _ _).1 h
  refine ⟨r, hr, ?_⟩
  rw [beq_iff_eq.1 hstatus]
  exact hs

theorem recordedStatus_ne (report : Report) : report.recordedStatus ≠ .running := by
  cases report <;> nofun

/-- A settled record stays settled. -/
theorem Over.next (h : Over st rid) (hs : Sound d st) (e : Engine.Event) : Over (Engine.next d st e) rid := by
  obtain ⟨r, hr, hne⟩ := h
  cases e with
  | leases leases => exact ⟨r, hr, hne⟩
  | op op ctx =>
    unfold Engine.next
    dsimp only
    cases hrun : op.run d ctx st with
    | error why => exact ⟨r, hr, hne⟩
    | ok st' =>
      obtain ⟨decision, v, -, -, hran⟩ := hs.ran hrun
      obtain ⟨r', hr', hstep⟩ := hs.record_step hran hr
      refine ⟨r', hr', ?_⟩
      cases hstep with
      | same heq => exact heq ▸ hne
      | fails _ hf => rw [hf]; nofun
      | succeeds _ hf => rw [hf]; nofun
      | supersedes hrun => exact absurd hrun hne

/-- An operation that settles the record in its one record write. -/
theorem over_of_update {op : Op} (hs : Sound d st) (h : op.run d ctx st = .ok st') {decision : Decision}
    (hd : op.decide d ctx st = .ok decision) {r : TurnRecord} (hr : st.turnRecords.get? rid = some r)
    {patch : TurnRecordPatch} (hw : decision.writes.turnRecordWrites = [.update rid patch])
    {status : TurnRecordStatus} (hp : patch.status = some status) (hne : status ≠ .running) : Over st' rid := by
  obtain ⟨decision', v, hd', -, hran⟩ := hs.ran h
  rw [hd, Except.ok.injEq] at hd'
  subst hd'
  refine ⟨patch.apply r, by rw [hran.record_updated hw hr, if_pos rfl], ?_⟩
  rw [TurnRecordPatch.apply, hp]
  exact hne

/-! ## What the operations settle -/

/-- A recorded report settles its record. -/
theorem over_of_recording (hs : Sound d st) {report : Report} (h : report.op.run d ctx st = .ok st') :
    Over st' report.turnRecordId := by
  obtain ⟨decision, -, hd, -, -⟩ := hs.ran h
  cases report with
  | outcome payload =>
    obtain ⟨hid, effective, heff, hrec⟩ := decideTurnOutcome_records hd
    obtain ⟨-, r, -, hr, -⟩ := hs.currentRecord hid
    obtain ⟨patch, hw, hp⟩ := completionWrite_update ctx (heff.symm ▸ hr)
    rw [heff] at hw
    exact over_of_update hs h hd hr (hrec.trans (congrArg ([·]) hw)) hp nofun
  | failure payload =>
    obtain ⟨r, -, hr, hw⟩ := decideTurnFailed_inv hd
    obtain ⟨⟨patch, hrec, hp⟩, -⟩ := buildTurnFailedWrites_spec st.process payload.toEngine r ctx.now
    exact over_of_update hs h hd hr (by rw [hw]; exact hrec) hp nofun

/-- A worker failure under the lease that owns the execution settles its record. -/
theorem over_of_fallback (hs : Sound d st) {payload : WorkerFailurePayload}
    (h : (Op.workerFailure payload).run d ctx st = .ok st') (hid : st.currentTurnRecordId = some rid)
    (hown : failureFromReplacedWorker st payload = false) : Over st' rid := by
  obtain ⟨decision, v, hd, -, hran⟩ := hs.ran h
  obtain ⟨-, r, -, hr, hcr, hkey, -⟩ := hs.currentRecord hid
  have hstart : startingExecution st = none := by
    obtain ⟨s, start, lease, hcs, hst⟩ := currentTurnRecordId_iff.1 hid
    unfold startingExecution
    rw [hcs]
    dsimp only
    rw [hst]
  by_cases hrun : r.status = .running
  · obtain ⟨patch, hw, hp⟩ := decideWorkerFailure_running hd hown hstart hcr hrun
    rw [hkey] at hw
    exact over_of_update hs h hd hr hw hp nofun
  · have := Over.next ⟨r, hr, hrun⟩ hs (.op (.workerFailure payload) ctx)
    unfold Engine.next at this
    dsimp only at this
    rwa [h] at this

/-! ## Tasks -/

/-- What a task promises: past its commit, or a fallback that succeeded, its record is over. -/
def Task.Settles (st : Store) (task : Task) : Prop :=
  match task.phase with
  | .committed _ | .fellBack true => Over st task.report.turnRecordId
  | _ => True

/-- Whether a fallback, if the event runs one, finds its record over or settles it. -/
def fallbackSettles (s : State) : Event → Bool
  | .run i ctx => match s.tasks[i]? with
    | some ⟨_, report, .fallback payload⟩ => ctx.reactionsFail ||
      (s.store.turnRecords.get? report.turnRecordId).any (·.status != .running) ||
      (s.store.currentTurnRecordId == some report.turnRecordId && !failureFromReplacedWorker s.store payload)
    | _ => true
  | _ => true

structure Settled (d : ProcessDefinition) (s : State) : Prop where
  sound : Sound d s.store
  tasks : ∀ task ∈ s.tasks, task.Settles s.store

theorem Task.Settles.next {task : Task} (h : task.Settles st) (hs : Sound d st) (e : Engine.Event) :
    task.Settles (Engine.next d st e) := by
  unfold Task.Settles at h ⊢
  split
  · rename_i hp
    rw [hp] at h
    exact h.next hs e
  · rename_i hp
    rw [hp] at h
    exact h.next hs e
  · trivial

/-! ## One step -/

theorem no_task {P : Task → Prop} : ∀ t ∈ (none : Option Task), P t := by
  intro t ht
  cases ht

theorem no_ack {P : Ack → Prop} : ∀ ack ∈ ([] : List Ack), P ack := by
  intro ack ha
  cases ha

/-- A task that falls back promises nothing yet, and what is acknowledged instead is over. -/
theorem recoverRecordingFailure_settles (st : Store) (workerLeaseId : String) (report : Report) (details : Details)
    (recovery : Option String × Option FailedTurnRecoveryContext) :
    (∀ task ∈ (recoverRecordingFailure st workerLeaseId report details recovery).1, task.Settles st) ∧
      ∀ ack ∈ (recoverRecordingFailure st workerLeaseId report details recovery).2, Over st ack.turnRecordId := by
  unfold recoverRecordingFailure
  split
  · rename_i hrec
    refine ⟨no_task, fun ack ha => ?_⟩
    rw [List.mem_singleton] at ha
    subst ha
    exact over_of_recorded hrec (recordedStatus_ne report)
  · refine ⟨fun task ht => ?_, no_ack⟩
    rw [Option.mem_def, Option.some.injEq] at ht
    subst ht
    trivial

theorem receive_settles (st : Store) (workerLeaseId : String) (report : Report) :
    (∀ task ∈ (receive st workerLeaseId report).1, task.Settles st) ∧
      ∀ ack ∈ (receive st workerLeaseId report).2, Over st ack.turnRecordId := by
  have hrecord : ∀ x : Option Task × List Ack,
      x = (if terminalWasAlreadyRecorded st report.turnRecordId report.recordedStatus = true
        then (none, [⟨report.turnRecordId⟩]) else (some ⟨workerLeaseId, report, .recording⟩, [])) →
      (∀ task ∈ x.1, task.Settles st) ∧ ∀ ack ∈ x.2, Over st ack.turnRecordId := by
    rintro x rfl
    split
    · rename_i hrec
      refine ⟨no_task, fun ack ha => ?_⟩
      rw [List.mem_singleton] at ha
      subst ha
      exact over_of_recorded hrec (recordedStatus_ne report)
    · refine ⟨fun task ht => ?_, no_ack⟩
      rw [Option.mem_def, Option.some.injEq] at ht
      subst ht
      trivial
  unfold receive
  dsimp only
  cases report with
  | outcome payload => exact hrecord _ rfl
  | failure payload =>
    dsimp only
    split
    · split
      · exact recoverRecordingFailure_settles _ _ _ _ _
      · exact hrecord _ rfl
    · exact hrecord _ rfl

theorem Task.resume_settles {task : Task} (h : task.Settles st) (thrown : Option String) :
    (∀ t ∈ (task.resume st thrown).1, t.Settles st) ∧ ∀ ack ∈ (task.resume st thrown).2, Over st ack.turnRecordId := by
  have hself : ∀ t ∈ some task, t.Settles st := by
    rintro t ⟨⟩
    exact h
  unfold Task.Settles at h
  unfold Task.resume
  split
  · rename_i result hp
    rw [hp] at h
    refine ⟨fun t ht => ?_, fun ack ha => ?_⟩
    · rw [Option.mem_def, Option.some.injEq] at ht
      subst ht
      trivial
    · rw [List.mem_singleton] at ha
      subst ha
      exact h
  · split
    · exact recoverRecordingFailure_settles _ _ _ _ _
    · exact ⟨no_task, no_ack⟩
  · exact recoverRecordingFailure_settles _ _ _ _ _
  · rename_i ok hp
    rw [hp] at h
    split
    · exact ⟨no_task, no_ack⟩
    · split
      · rename_i hack
        refine ⟨no_task, fun ack ha => ?_⟩
        rw [List.mem_singleton] at ha
        subst ha
        cases ok with
        | true => exact h
        | false => exact over_of_recorded hack nofun
      · exact ⟨no_task, no_ack⟩
  · exact ⟨hself, no_ack⟩
  · exact ⟨hself, no_ack⟩

/-- The task whose operation ran keeps its promise in the store the operation left. -/
theorem Task.ran_settles {s : State} {i : Nat} {task : Task} {op : Op} (hs : Sound d s.store) (hi : s.tasks[i]? = some task)
    (hop : task.op? = some op) (hok : fallbackSettles s (.run i ctx) = true) {result : Result}
    (hres : (Engine.outputs d s.store (.op op ctx)).head? = some result) :
    (task.ran result).Settles (Engine.next d s.store (.op op ctx)) := by
  obtain ⟨workerLeaseId, report, phase⟩ := task
  unfold Engine.outputs at hres
  unfold Engine.next
  dsimp only at hres ⊢
  cases phase with
  | committed r => cases hop
  | returned r => cases hop
  | fellBack ok => cases hop
  | recording =>
    cases hop
    cases hrun : report.op.run d ctx s.store with
    | error why =>
      rw [hrun] at hres
      cases hres
      trivial
    | ok st' =>
      have hover := over_of_recording hs hrun
      rw [hrun] at hres
      cases hres
      dsimp only
      split
      · exact hover
      · exact hover
  | fallback payload =>
    cases hop
    cases hrun : (Op.workerFailure payload).run d ctx s.store with
    | error why =>
      rw [hrun] at hres
      cases hres
      trivial
    | ok st' =>
      rw [hrun] at hres
      cases hres
      cases hfail : ctx.reactionsFail with
      | true => trivial
      | false =>
        rw [fallbackSettles, hi] at hok
        simp only [hfail, Bool.false_or, Bool.or_eq_true, Bool.and_eq_true, beq_iff_eq, Bool.not_eq_true'] at hok
        show Over st' report.turnRecordId
        rcases hok with hover | ⟨hid, hown⟩
        · obtain ⟨r, hr, hne⟩ := (Option.any_eq_true _ _).1 hover
          have := Over.next ⟨r, hr, by simpa using hne⟩ hs (.op (.workerFailure payload) ctx)
          unfold Engine.next at this
          dsimp only at this
          rwa [hrun] at this
        · exact over_of_fallback hs hrun hid hown

theorem Settled.next {s : State} (h : Settled d s) {e : Event} (hok : fallbackSettles s e = true) : Settled d (next d s e) := by
  cases e with
  | engine e => exact ⟨h.sound.next e, fun task ht => (h.tasks task ht).next h.sound e⟩
  | restart => exact ⟨h.sound, fun task ht => by cases ht⟩
  | report workerId report =>
    unfold Ipc.next
    dsimp only
    split
    · split
      · refine ⟨h.sound, fun task ht => ?_⟩
        rcases List.mem_append.1 ht with ht | ht
        · exact h.tasks task ht
        · exact (receive_settles _ _ _).1 task (Option.mem_toList.1 ht)
      · exact h
    · exact h
  | resume i thrown =>
    unfold Ipc.next
    dsimp only
    split
    · rename_i task hi
      refine ⟨h.sound, fun t ht => ?_⟩
      replace ht : t ∈ settleTask s.tasks i (task.resume s.store thrown).1 := ht
      cases hleft : (task.resume s.store thrown).1 with
      | none =>
        rw [hleft] at ht
        exact h.tasks t (List.mem_of_mem_eraseIdx ht)
      | some left =>
        rw [hleft] at ht
        rcases List.mem_or_eq_of_mem_set ht with ht | rfl
        · exact h.tasks t ht
        · exact (Task.resume_settles (h.tasks task (List.mem_of_getElem? hi)) thrown).1 _ hleft
    · exact h
  | run i ctx =>
    unfold Ipc.next
    dsimp only
    split
    · rename_i task hi
      split
      · rename_i op hop
        refine ⟨h.sound.next (.op op ctx), fun t ht => ?_⟩
        dsimp only at ht
        split at ht
        · rename_i result hres
          rcases List.mem_or_eq_of_mem_set ht with ht | rfl
          · exact (h.tasks t ht).next h.sound _
          · exact Task.ran_settles h.sound hi hop hok hres
        · exact (h.tasks t ht).next h.sound _
      · exact h
    · exact h

theorem Settled.acks {s : State} (h : Settled d s) {e : Event} {ack : Ack} (ha : ack ∈ acks s e) :
    Over s.store ack.turnRecordId := by
  cases e with
  | engine e => cases ha
  | restart => cases ha
  | run i ctx => cases ha
  | report workerId report =>
    unfold Ipc.acks at ha
    dsimp only at ha
    split at ha
    · split at ha
      · exact (receive_settles _ _ _).2 ack ha
      · cases ha
    · cases ha
  | resume i thrown =>
    unfold Ipc.acks at ha
    dsimp only at ha
    split at ha
    · rename_i task hi
      exact (Task.resume_settles (h.tasks task (List.mem_of_getElem? hi)) thrown).2 ack ha
    · cases ha

/-! ## Every run -/

/-- In a run whose successful fallbacks find their record over, or report the current record under
the lease that owns it, a report is acknowledged only for a record that does not run. -/
theorem acknowledged_settled {s₀ s : State} {h : Runs.Hist Event Ack} (h₀ : Fresh s₀.store) (ht₀ : s₀.tasks = [])
    (hr : Runs.Run (Runs.Guard (RecorderStep d) fun s e => fallbackSettles s e = true) s₀ h s) (e : Event) (ack : Ack)
    (ha : ack ∈ acks s e) : ∃ r, s.store.turnRecords.get? ack.turnRecordId = some r ∧ r.status ≠ .running := by
  have hsettled : Settled d s := by
    refine hr.inv (Settled d) ⟨sound_fresh h₀, fun task ht => ?_⟩ ?_
    · rw [ht₀] at ht
      cases ht
    · rintro a e os b hi ⟨⟨rfl, -⟩, hok⟩
      exact hi.next hok
  exact hsettled.acks ha

/-- A store whose process has not started, and no reports. -/
def demoState : State := ⟨demoFresh, []⟩

/-- The engine's own events, then the worker's. -/
def afterReports (es : List Event) : State := es.foldl (next demoDefinition) demoState

/-- The running turn fails on the worker, which reports it; the report is recorded. -/
def demoReported : List Event :=
  demoRunning.map .engine ++
    [.report "wkr" (.failure { turnRecordId := "trn-10", turnId := "build", turnType := .automatic, errorSummary := "exit 1" }),
     .run 0 (demoContext "3")]

theorem recorder_run_guarded (es : List Event)
    (h : Runs.allOk (next demoDefinition) fallbackSettles demoState es = true) :
    Runs.Run (Runs.Guard (RecorderStep demoDefinition) fun s e => fallbackSettles s e = true) demoState
      (Runs.play (next demoDefinition) acks demoState es) (afterReports es) :=
  Runs.run_guarded (next demoDefinition) acks (fun _ _ => ⟨rfl, rfl⟩) h

theorem acknowledged_settled_demo : ∃ r, (afterReports demoReported).store.turnRecords.get? "trn-10" = some r ∧
    r.status ≠ .running :=
  acknowledged_settled fresh_demo rfl
    (recorder_run_guarded demoReported (by decide +kernel)) (.resume 0 none) ⟨"trn-10"⟩ (by decide +kernel)

/-- An action left the running record without an execution; its worker reports the outcome. -/
def demoOrphaned : List Event :=
  demoLeaving.map .engine ++
    [.report "wkr" (.outcome { turnRecordId := "trn-10", turnId := "build", turnType := .automatic, outcome := "done" }),
     .run 0 (demoContext "4"), .resume 0 none, .run 0 (demoContext "5")]

/-- The outcome is refused as stale, the fallback settles nothing, and both are acknowledged
while the record runs. -/
theorem running_acknowledged : ¬ ∀ (d : ProcessDefinition) (s₀ s : State) (h : Runs.Hist Event Ack), Fresh s₀.store →
    s₀.tasks = [] → Runs.Run (RecorderStep d) s₀ h s → ∀ e, ∀ ack ∈ acks s e, ∀ r,
      s.store.turnRecords.get? ack.turnRecordId = some r → r.status ≠ .running := by
  intro hall
  have hrow : ((afterReports demoOrphaned).store.turnRecords.get? "trn-10").any (·.status == .running) = true := by
    decide +kernel
  obtain ⟨r, hr, hrun⟩ := (Option.any_eq_true _ _).1 hrow
  exact hall demoDefinition demoState (afterReports demoOrphaned) _ fresh_demo rfl
    (Runs.run_play (next demoDefinition) acks (fun _ _ => ⟨rfl, rfl⟩) demoState demoOrphaned) (.resume 0 none) ⟨"trn-10"⟩
    (by decide +kernel) r hr (beq_iff_eq.1 hrun)

end Leitwerk.Ipc
