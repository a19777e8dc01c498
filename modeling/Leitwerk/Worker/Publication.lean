import Leitwerk.Worker.Outstanding
/-!
# The publication slot

The worker publishes one thing at a time: a snapshot, a terminal fact, or the
failure it ends with. `Slot` says what one step does to the publication.
From it follow, for every run in which nothing overruns a fatal snapshot
(`overrunsFatal`): no event makes the reducer throw (`publication_safe`, first
part), an active publication is only left by its own completion or
acknowledgement or by the exit of the worker (second part), and a decided
failure stays pending, with the command that finishes it still running, until
`worker.failed` is emitted or the transport is lost (third part).
-/

namespace Leitwerk.Worker

open Runs

/-! ## Who settles a publication -/

/-- The failure a publication will end the worker with. -/
def Publication.fatal? : Publication → Option PendingFatal
  | .fatalSnapshot fatal _ | .fatalPendingCleanup fatal => some fatal
  | _ => .none

/-- The command that finishes a fatal failure. -/
def Publication.fatalKey? : Publication → Option Key
  | .fatalSnapshot _ _ => some (.uploadSnapshot .beforeWorkerFailed .none)
  | .fatalPendingCleanup _ => some .cleanup
  | _ => .none

/-- A completion of the cleanup. -/
def Event.completesCleanup : Event → Bool
  | .cleanupSucceeded | .cleanupFailed _ => true
  | _ => false

/-- The event a publication waits for: the completion of its snapshot or of the
cleanup, or the acknowledgement of its terminal fact. -/
def Publication.settledBy (p : Publication) (e : Event) : Bool :=
  match p with
  | .terminalPendingAck terminal =>
    e == .serverMessage (.turnTerminalRecorded terminal.correlation.turnRecordId)
  | .fatalPendingCleanup _ => e.completesCleanup
  | p => p.snapshot.any fun snapshot => e.completesSnapshot snapshot.point snapshot.turnRecordId

/-- A turn result, or the end of the cleanup, while a fatal snapshot is in flight. -/
def overrunsFatal (s : State) (e : Event) : Bool :=
  match s.publication, e with
  | .fatalSnapshot _ _, .turnCompleted record result =>
    matchesTurn s record && s.session.isSome &&
      match result.result with
      | .parked _ => false
      | _ => true
  | .fatalSnapshot _ _, .cleanupSucceeded => s.phase.cleaningResources
  | _, _ => false

/-- Whether an output ends the worker with a failure. -/
def Output.isFailed : Output → Bool
  | .fact (.failed _) => true
  | _ => false

section
variable {s t m : State} {e : Event} {os os' : List Output}

/-- Events that settle no publication. -/
def Event.settlesNothing : Event → Bool
  | .serverMessage (.turnTerminalRecorded _) | .snapshotSucceeded _ _ | .snapshotFailed _ _ _ => false
  | .cleanupSucceeded | .cleanupFailed _ => false
  | _ => true

theorem settlesNothing_settledBy (h : e.settlesNothing = true) (p : Publication) : p.settledBy e = false := by
  have hs : ∀ point record, e.completesSnapshot point record = false := by
    intro point record
    cases e <;> simp_all [Event.settlesNothing, Event.completesSnapshot]
  have hc : e.completesCleanup = false := by
    cases e <;> simp_all [Event.settlesNothing, Event.completesCleanup]
  cases p with
  | terminalPendingAck terminal =>
    simp only [Publication.settledBy, beq_eq_false_iff_ne]
    rintro rfl
    cases h
  | fatalPendingCleanup fatal => exact hc
  | _ => simp [Publication.settledBy, hs]

/-! ## What a step does to the publication -/

/-- A step keeps the publication, opens one in the empty slot, settles the
active one by the event it waits for, or ends the worker. A failure that is
settled stays pending for the cleanup or is emitted. -/
inductive Slot (s : State) (e : Event) (os : List Output) (t : State) : Prop
  | same : t.phase ≠ .exited → t.publication = s.publication → s.publication.settledBy e = false → Slot s e os t
  | opened : t.phase ≠ .exited → s.publication = .none →
      (∀ key, t.publication.fatalKey? = some key → key ∈ keys os) → Slot s e os t
  | settled : t.phase ≠ .exited → s.publication.settledBy e = true →
      (∀ key, t.publication.fatalKey? = some key → key ∈ keys os) →
      (∀ fatal, s.publication.fatal? = some fatal → t.publication.fatal? = some fatal) → Slot s e os t
  | exited : t.phase = .exited → t.publication.fatal? = none →
      (s.publication.fatal? ≠ none → os.any (·.isFailed) = true ∨ ∃ error, e = .transportFailed error) →
      Slot s e os t

theorem fatal_slot {source : Option SnapshotSource} (hx : s.phase ≠ .exited) (h : Fatal s source os t) :
    Slot s e os t := by
  cases h with
  | snapshot _ hn =>
    refine .opened hx hn fun key hk => ?_
    cases hk
    simp [fatalUpload, Output.key?]
  | exit _ => exact .exited rfl rfl fun _ => .inl rfl

theorem dispatch_slot (hx : s.phase ≠ .exited) (h : Dispatch s os t) (he : e.settlesNothing = true) :
    Slot s e os t := by
  cases h with
  | parked _ => exact .same hx rfl (settlesNothing_settledBy he _)
  | fatal _ hf => exact fatal_slot hx hf

/-- The publication while a turn executes: none, or a fatal snapshot. -/
theorem Fits.executing_publication {record : String} (hi : Fits s) (hm : matchesTurn s record = true) :
    s.publication = .none ∨ ∃ fatal, s.publication = .fatalSnapshot fatal .exit := by
  have hq := hi.executing (executing_of_matches hm)
  unfold Publication.quietOrFatal at hq
  split at hq
  · exact .inl ‹_›
  · exact .inr ⟨_, ‹_›⟩
  · cases hq

/-- A result that does not overrun a fatal snapshot finds the slot empty. -/
theorem executing_unpublished {record : String} {result : SelectedTurnExecutionResult} (hi : Fits s)
    (hok : overrunsFatal s (.turnCompleted record result) = false) (hm : matchesTurn s record = true)
    (hs : s.session ≠ none) (hr : ∀ reason, result.result ≠ .parked reason) : s.publication = .none := by
  rcases hi.executing_publication hm with h | ⟨fatal, h⟩
  · exact h
  · exfalso
    have hses : s.session.isSome = true := Option.isSome_iff_ne_none.2 hs
    cases hres : result.result with
    | parked reason => exact hr reason hres
    | outcome => simp [overrunsFatal, h, hm, hses, hres] at hok
    | failed => simp [overrunsFatal, h, hm, hses, hres] at hok

theorem turnDone_unexited {record : String} (result : SelectedTurnExecutionResult) (hm : matchesTurn s record = true) :
    (turnDone s result).state.phase ≠ .exited := by
  unfold matchesTurn at hm
  unfold turnDone finishDrainingOperation
  split at hm
  · rename_i hp
    simp [hp, removeAppliedTargeted, completedPhase]
  · rename_i hp
    simp [hp, removeAppliedTargeted, completedPhase]
  · cases hm

theorem handled_slot (hi : Fits s) (hx : s.phase ≠ .exited) (hok : overrunsFatal s e = false)
    (h : Handled s e os t) : Slot s e os t := by
  have quiet : ∀ {os t}, t.phase ≠ .exited → t.publication = s.publication → e.settlesNothing = true →
      Slot s e os t := fun ht hp he => .same ht hp (settlesNothing_settledBy he _)
  cases h with
  | started _ => exact quiet (by simp) rfl rfl
  | reconnected hp => exact quiet hx (by simp [State.awaiting, hp]) rfl
  | transportLost => exact .exited rfl rfl fun _ => .inr ⟨_, rfl⟩
  | stopped he _ =>
    refine quiet (by simp) rfl ?_
    unfold Event.isStop at he
    split at he <;> first | rfl | cases he
  | tainted => exact quiet hx rfl rfl
  | start _ => exact quiet (by simp) rfl rfl
  | batch _ _ =>
    unfold onInputBatch
    split <;> exact quiet hx rfl rfl
  | acceptedEarly _ => exact quiet (by simp) rfl rfl
  | accepted _ _ => exact quiet (by simp) rfl rfl
  | acknowledged hp =>
    exact .settled hx (by simp [Publication.settledBy, hp]) (by simp [Publication.fatalKey?])
      (by simp [hp, Publication.fatal?])
  | bootstrapDrained hp => exact quiet (by simp [bootstrapped, hp]) rfl rfl
  | bootstrapReadied hp hpub =>
    rcases hpub with ⟨rfl, _⟩ | ⟨hn, rfl, rfl⟩
    · exact quiet (by simp [bootstrapped, hp]) rfl rfl
    · exact .opened (by simp [bootstrapped, hp]) hn (by simp [Publication.fatalKey?])
  | bootstrapFailed _ hf => exact fatal_slot hx hf
  | activated _ => exact quiet (by simp) rfl rfl
  | activationDrained _ => exact quiet (by simp) rfl rfl
  | operationDrained _ he =>
    refine quiet (by simp) rfl ?_
    rcases he with ⟨_, _, _, _, _, rfl⟩ | ⟨_, _, _, _, rfl⟩ | ⟨_, _, _, rfl⟩ <;> rfl
  | activationFailed _ hd => exact dispatch_slot hx hd rfl
  | turnDefect _ hd => exact dispatch_slot hx hd rfl
  | delivered _ =>
    unfold onInputsDelivered
    split <;> exact quiet hx rfl rfl
  | deliveryDrained _ _ => exact quiet hx rfl rfl
  | deliveryFailed _ _ hd =>
    cases hd with
    | parked _ => exact quiet hx rfl rfl
    | fatal _ hf =>
      cases hf with
      | snapshot _ hn =>
        refine .opened hx hn fun key hk => ?_
        cases hk
        simp [fatalUpload, Output.key?]
      | exit _ => exact .exited rfl rfl fun _ => .inl rfl
  | turnQuiet hm _ => exact quiet (turnDone_unexited _ hm) (turnDone_publication _ _) rfl
  | turnPublished hm hr hs =>
    have hn := executing_unpublished hi hok hm (by rintro h; simp [h] at hs) (by rintro reason h; simp [h, Reports] at hr)
    exact .opened (turnDone_unexited _ hm) hn (by simp [State.awaiting, Publication.fatalKey?])
  | turnSnapshot hm _ _ hn => exact .opened (turnDone_unexited _ hm) hn (by simp [Publication.fatalKey?])
  | readyUploaded hp he =>
    exact .settled hx (by simp [Publication.settledBy, hp, Publication.snapshot, he])
      (by simp [Publication.fatalKey?]) (by simp [hp, Publication.fatal?])
  | terminalUploaded hp =>
    exact .settled hx (by simp [Publication.settledBy, hp, Publication.snapshot, Event.completesSnapshot])
      (by simp [State.awaiting, Publication.fatalKey?]) (by simp [hp, Publication.fatal?])
  | terminalUploadFailed hp _ =>
    exact .settled hx (by simp [Publication.settledBy, hp, Publication.snapshot, Event.completesSnapshot])
      (by simp [Publication.fatalKey?]) (by simp [hp, Publication.fatal?])
  | cleanupUploaded hp _ =>
    exact .settled (by simp) (by simp [Publication.settledBy, hp, Publication.snapshot, Event.completesSnapshot])
      (by simp [Publication.fatalKey?]) (by simp [hp, Publication.fatal?])
  | cleanupUploadFailed hp hph hf =>
    cases hf with
    | snapshot _ _ =>
      refine .settled hx (by simp [Publication.settledBy, hp, Publication.snapshot, Event.completesSnapshot])
        (fun key hk => ?_) (by simp [hp, Publication.fatal?])
      cases hk
      simp [fatalUpload, Output.key?]
    | exit _ => exact .exited rfl rfl fun _ => .inl rfl
  | fatalUploaded _ _ => exact .exited rfl rfl fun _ => .inl rfl
  | fatalCleaning hp _ he =>
    refine .settled (by simp) (by simp [Publication.settledBy, hp, Publication.snapshot, he]) (fun key hk => ?_)
      (by simp [hp, Publication.fatal?])
    cases hk
    simp [Output.key?]
  | retried hp _ _ => exact quiet hx (by simp [State.awaiting, hp]) rfl
  | retryLapsed _ _ => exact quiet hx rfl rfl
  | cleanedFatal _ _ => exact .exited rfl rfl fun _ => .inl rfl
  | cleaned hc hp =>
    have hf : s.publication.fatal? = none := by
      cases hpub : s.publication with
      | fatalSnapshot fatal after => simp [overrunsFatal, hpub, hc] at hok
      | fatalPendingCleanup fatal => exact absurd hpub (hp fatal)
      | _ => rfl
    exact .exited rfl hf fun h => absurd hf h
  | cleanupFailed _ hf => exact fatal_slot hx hf
  | invariantFailed hd => exact dispatch_slot hx hd rfl

/-- Advancing opens the empty slot only for the snapshot of a cleanup, and never exits. -/
theorem advanced_publication (h : Advanced s os t) :
    (t.publication = s.publication ∨ s.publication = .none ∧ t.publication.fatalKey? = none) ∧
      (s.phase ≠ .exited → t.phase ≠ .exited) := by
  induction h with
  | rest _ => exact ⟨.inl rfl, id⟩
  | activate _ _ _ => exact ⟨.inl rfl, by simp⟩
  | ready _ _ _ ih => exact ⟨ih.1, fun _ => ih.2 (by simp)⟩
  | cleanupSnapshot _ _ hn => exact ⟨.inr ⟨hn, rfl⟩, by simp⟩
  | cleanup _ _ _ => exact ⟨.inl rfl, by simp⟩
  | ignore _ _ _ ih => exact ih
  | deliver _ _ => exact ⟨.inl rfl, id⟩
  | execute _ _ _ _ => exact ⟨.inl rfl, by simp⟩

theorem Slot.advance (h : Slot s e os m) (ha : Advanced m os' t) : Slot s e (os ++ os') t := by
  obtain ⟨hp, ht⟩ := advanced_publication ha
  cases h with
  | same hm hpub he =>
    rcases hp with hp | ⟨hn, hf⟩
    · exact .same (ht hm) (hp.trans hpub) he
    · exact .opened (ht hm) (hpub ▸ hn) (by simp [hf])
  | opened hm hn hk =>
    refine .opened (ht hm) hn fun key h => ?_
    rcases hp with hp | ⟨_, hf⟩
    · simp [hk key (hp ▸ h)]
    · simp [hf] at h
  | settled hm he hk hf =>
    rcases hp with hp | ⟨hn, hnone⟩
    · exact .settled (ht hm) he (fun key h => by simp [hk key (hp ▸ h)]) (fun fatal h => hp ▸ hf fatal h)
    · refine .settled (ht hm) he (by simp [hnone]) fun fatal h => ?_
      have h := hf fatal h
      simp [hn, Publication.fatal?] at h
  | exited hx hf he =>
    obtain ⟨rfl, rfl⟩ := advanced_exits hx ha
    exact .exited hx hf (by simpa using he)

theorem ignored_settledBy (hi : Fits s) (h : Ignored s e) : s.publication.settledBy e = false := by
  have snapshot : ∀ {point record}, snapshotMatches s point record = false →
      (∀ q r, e.completesSnapshot q r = (q == point && r == record)) → e.completesCleanup = false →
      (∀ m, e ≠ .serverMessage m) → s.publication.settledBy e = false := by
    intro point record hm hc hn hne
    unfold snapshotMatches at hm
    cases hp : s.publication with
    | terminalPendingAck terminal => simp [Publication.settledBy, hne]
    | fatalPendingCleanup fatal => exact hn
    | none => rfl
    | _ =>
      rw [hp] at hm
      simpa only [Publication.settledBy, Publication.snapshot, Option.any_some, hc] using hm
  have cleanup : s.phase.cleaningResources = false → (∀ q r, e.completesSnapshot q r = false) →
      (∀ m, e ≠ .serverMessage m) → s.publication.settledBy e = false := by
    intro hc hs hne
    cases hp : s.publication with
    | fatalPendingCleanup fatal => simp [hi.pendingCleanup fatal hp] at hc
    | terminalPendingAck terminal => simp [Publication.settledBy, hne]
    | _ => simp [Publication.settledBy, hs]
  have comm : ∀ (point q : SnapshotPoint) (record r : Option String),
      (point == q && record == r) = (q == point && r == record) := by
    intro point q record r
    rw [BEq.comm, BEq.comm (a := record)]
  cases e with
  | serverMessage message =>
    cases message with
    | turnTerminalRecorded record =>
      simp only [Ignored, awaitsAck] at h
      cases hp : s.publication with
      | terminalPendingAck terminal =>
        rw [hp] at h
        refine beq_eq_false_iff_ne.2 fun he => ?_
        cases he
        simp at h
      | fatalPendingCleanup fatal => rfl
      | _ => simp [Publication.settledBy, Event.completesSnapshot]
    | _ => exact settlesNothing_settledBy rfl _
  | snapshotSucceeded point record => exact snapshot h (fun q r => comm point q record r) rfl (by simp)
  | snapshotFailed point record error => exact snapshot h (fun q r => comm point q record r) rfl (by simp)
  | cleanupSucceeded => exact cleanup h (fun _ _ => rfl) (by simp)
  | cleanupFailed error => exact cleanup h (fun _ _ => rfl) (by simp)
  | _ => exact settlesNothing_settledBy rfl _

/-- What a step does to the publication. -/
theorem coreStep_slot (hi : Fits s) (hx : s.phase ≠ .exited) (hok : overrunsFatal s e = false) (hno : ¬Throws s e)
    (h : CoreStep s e os t) : Slot s e os t := by
  cases h with
  | exited h => exact absurd h hx
  | thrown _ h => exact absurd h hno
  | ignored _ hg ha =>
    have h : Slot s e [] s := .same hx rfl (ignored_settledBy hi hg)
    exact h.advance ha
  | handled _ hh ha => exact Slot.advance (handled_slot hi hx hok hh) ha

/-! ## One bootstrap -/

/-- The number of bootstraps among commands. -/
def bootstraps (ks : List Key) : Nat :=
  ks.countP fun
    | .bootstrap _ => true
    | _ => false

@[simp] theorem bootstraps_append (a b : List Key) : bootstraps (a ++ b) = bootstraps a + bootstraps b := by
  simp [bootstraps]

/-- A worker without a bootstrap running: none has begun, or it has failed. -/
def unbootstrapped (s : State) : Bool :=
  match s.phase with
  | .bootstrapping _ _ => s.publication != .none
  | phase => phase.beforeStart

/-- A step emits no bootstrap and leaves the worker without one only if it was
without one or the bootstrap is answered; or it begins the one bootstrap. -/
inductive Bootstraps (s : State) (e : Event) (os : List Output) (t : State) : Prop
  | none : bootstraps (keys os) = 0 →
      (unbootstrapped t = true → unbootstrapped s = true ∨ ∃ id, e.answers? = some (.bootstrap id)) →
      Bootstraps s e os t
  | one : unbootstrapped s = true → bootstraps (keys os) = 1 → unbootstrapped t = false → e.answers? = .none →
      Bootstraps s e os t

theorem keys_of_consumed {os : List Output}
    (h : ∀ o ∈ os, ∃ id sequence mode info, o = inputConsumedFact id sequence mode info) : keys os = [] := by
  refine List.filterMap_eq_nil_iff.2 fun o ho => ?_
  obtain ⟨_, _, _, _, rfl⟩ := h o ho
  rfl

theorem unbootstrapped_session (h : unbootstrapped s = true) : s.phase.beforeSession = true := by
  unfold unbootstrapped at h
  cases hp : s.phase <;> simp_all [Phase.beforeStart, Phase.beforeSession]

/-- A step into a phase that has a session. -/
theorem bootstraps_settled (hk : bootstraps (keys os) = 0) (ht : t.phase.beforeSession = false) :
    Bootstraps s e os t := by
  refine .none hk fun h => ?_
  rw [unbootstrapped_session h] at ht
  cases ht

/-- A step that keeps phase and publication. -/
theorem bootstraps_keep (hk : bootstraps (keys os) = 0) (hp : t.phase = s.phase)
    (hpub : t.publication = s.publication) : Bootstraps s e os t := by
  refine .none hk fun h => .inl ?_
  unfold unbootstrapped at h ⊢
  rwa [hp, hpub] at h

theorem fatal_bootstraps {source : Option SnapshotSource} (hs : s.phase.beforeSession = true → source = none)
    (h : Fatal s source os t) : Bootstraps s e os t := by
  cases h with
  | snapshot hsome _ =>
    refine bootstraps_settled rfl ?_
    cases hb : s.phase.beforeSession with
    | false => rfl
    | true =>
      rw [hs hb] at hsome
      cases hsome
  | exit _ => exact bootstraps_settled rfl rfl

theorem dispatch_bootstraps (hi : Fits s) (h : Dispatch s os t) : Bootstraps s e os t := by
  cases h with
  | parked _ => exact bootstraps_keep rfl rfl rfl
  | fatal _ hf => exact fatal_bootstraps (fun hb => by simp [State.source, hi.sessionless hb]) hf

theorem turnDone_session {record : String} (result : SelectedTurnExecutionResult) (hm : matchesTurn s record = true) :
    (turnDone s result).state.phase.beforeSession = false ∧ keys (turnDone s result).outputs = [] := by
  refine ⟨?_, keys_of_consumed (removeApplied_outputs _ _ _)⟩
  unfold matchesTurn at hm
  unfold turnDone finishDrainingOperation
  split at hm
  · rename_i hp
    simp [hp, removeAppliedTargeted, completedPhase, Phase.beforeSession]
  · rename_i hp
    simp [hp, removeAppliedTargeted, completedPhase, Phase.beforeSession]
  · cases hm

theorem handled_bootstraps (hi : Fits s) (h : Handled s e os t) : Bootstraps s e os t := by
  have published : s.publication.quietOrFatal = false → s.phase.beforeSession = false := by
    intro hq
    cases hb : s.phase.beforeSession with
    | false => rfl
    | true =>
      rw [hi.bootstrapping hb] at hq
      cases hq
  cases h with
  | started hp => exact .none rfl fun _ => .inl (by simp [unbootstrapped, hp, Phase.beforeStart])
  | reconnected hp => exact bootstraps_keep rfl rfl (by simp [State.awaiting, hp])
  | transportLost => exact bootstraps_settled rfl rfl
  | stopped _ _ => exact bootstraps_settled rfl rfl
  | tainted => exact bootstraps_keep rfl rfl rfl
  | start hp =>
    have hn : s.publication = .none := hi.unpublished (by simp [hp, Phase.beforeStart])
    exact .one (by simp [unbootstrapped, hp, Phase.beforeStart]) rfl (by simp [unbootstrapped, hn]) rfl
  | batch _ _ =>
    unfold onInputBatch
    split <;> exact bootstraps_keep rfl rfl rfl
  | acceptedEarly _ => exact bootstraps_settled rfl rfl
  | accepted _ _ => exact bootstraps_settled rfl rfl
  | acknowledged hp => exact bootstraps_settled rfl (published (by simp [hp, Publication.quietOrFatal]))
  | bootstrapDrained hp => exact bootstraps_settled rfl (by simp [bootstrapped, hp, Phase.beforeSession])
  | bootstrapReadied hp hpub =>
    refine bootstraps_settled ?_ (by simp [bootstrapped, hp, Phase.beforeSession])
    rcases hpub with ⟨_, rfl⟩ | ⟨_, _, rfl⟩ <;> rfl
  | bootstrapFailed hp hf =>
    cases hf with
    | snapshot _ _ => exact .none rfl fun _ => .inr ⟨_, rfl⟩
    | exit _ => exact bootstraps_settled rfl rfl
  | activated _ => exact bootstraps_settled rfl rfl
  | activationDrained _ => exact bootstraps_settled rfl rfl
  | operationDrained _ _ => exact bootstraps_settled rfl rfl
  | activationFailed _ hd => exact dispatch_bootstraps hi hd
  | turnDefect _ hd => exact dispatch_bootstraps hi hd
  | @delivered headSequence delivered info _ =>
    have hk := keys_of_consumed (delivered_outputs s headSequence delivered info)
    refine bootstraps_keep (by simp [hk, bootstraps]) ?_ ?_ <;>
    · unfold onInputsDelivered
      split <;> rfl
  | deliveryDrained _ _ => exact bootstraps_keep rfl rfl rfl
  | deliveryFailed _ hp hd =>
    cases hd with
    | parked _ => exact bootstraps_keep rfl rfl rfl
    | fatal _ hf =>
      cases hf with
      | snapshot hsome _ =>
        refine bootstraps_settled rfl ?_
        cases hb : s.phase.beforeSession with
        | false => rfl
        | true => simp [State.source, hi.sessionless hb] at hsome
      | exit _ => exact bootstraps_settled rfl rfl
  | turnQuiet hm _ =>
    obtain ⟨hb, hk⟩ := turnDone_session _ hm
    exact bootstraps_settled (by simp [hk, bootstraps]) hb
  | turnPublished hm _ _ =>
    obtain ⟨hb, hk⟩ := turnDone_session _ hm
    exact bootstraps_settled (by simp [hk, bootstraps, PendingTerminal.output, Output.key?]) hb
  | turnSnapshot hm _ _ _ =>
    obtain ⟨hb, hk⟩ := turnDone_session _ hm
    exact bootstraps_settled (by simp [hk, bootstraps, Output.key?]) hb
  | readyUploaded hp _ => exact bootstraps_settled rfl (published (by simp [hp, Publication.quietOrFatal]))
  | terminalUploaded hp => exact bootstraps_settled rfl (published (by simp [hp, Publication.quietOrFatal]))
  | terminalUploadFailed hp _ => exact bootstraps_settled rfl (published (by simp [hp, Publication.quietOrFatal]))
  | cleanupUploaded _ _ => exact bootstraps_settled rfl rfl
  | cleanupUploadFailed _ hp hf =>
    cases hf with
    | snapshot _ _ => exact bootstraps_settled rfl (by simp [hp, Phase.beforeSession])
    | exit _ => exact bootstraps_settled rfl rfl
  | fatalUploaded _ _ => exact bootstraps_settled rfl rfl
  | fatalCleaning _ _ _ => exact bootstraps_settled rfl rfl
  | retried hp _ _ => exact bootstraps_keep rfl rfl (by simp [State.awaiting, hp])
  | retryLapsed _ _ => exact bootstraps_keep rfl rfl rfl
  | cleanedFatal _ _ => exact bootstraps_settled rfl rfl
  | cleaned _ _ => exact bootstraps_settled rfl rfl
  | cleanupFailed hc hf =>
    refine fatal_bootstraps (fun hb => ?_) hf
    simp [State.source, hi.sessionless hb]
  | invariantFailed hd => exact dispatch_bootstraps hi hd

/-- Advancing neither begins a bootstrap nor returns to one. -/
theorem advanced_bootstraps (h : Advanced s os t) :
    bootstraps (keys os) = 0 ∧ (unbootstrapped t = true → unbootstrapped s = true) := by
  have settled : ∀ {s t : State}, t.phase.beforeSession = false → unbootstrapped t = true → unbootstrapped s = true := by
    intro s t ht h
    rw [unbootstrapped_session h] at ht
    cases ht
  induction h with
  | rest _ => exact ⟨rfl, id⟩
  | activate _ _ _ => exact ⟨rfl, settled rfl⟩
  | ready _ _ _ ih => exact ⟨ih.1, fun h => by simpa [unbootstrapped, Phase.beforeStart] using ih.2 h⟩
  | cleanupSnapshot _ _ _ => exact ⟨rfl, settled rfl⟩
  | cleanup _ _ _ => exact ⟨rfl, settled rfl⟩
  | @ignore s _ _ inputs _ _ _ _ ih =>
    have hk := keys_of_consumed (ignored_outputs s inputs)
    exact ⟨by rw [keys_append, hk]; exact ih.1, ih.2⟩
  | deliver _ _ => exact ⟨rfl, id⟩
  | execute _ _ _ _ => exact ⟨rfl, settled rfl⟩

theorem Bootstraps.advance (h : Bootstraps s e os m) (ha : Advanced m os' t) : Bootstraps s e (os ++ os') t := by
  obtain ⟨hk, hu⟩ := advanced_bootstraps ha
  cases h with
  | none h0 h => exact .none (by simp [h0, hk]) fun ht => h (hu ht)
  | one hs h1 hm hn =>
    refine .one hs (by simp [h1, hk]) ?_ hn
    cases ht : unbootstrapped t with
    | false => rfl
    | true =>
      rw [hu ht] at hm
      cases hm

theorem coreStep_bootstraps (hi : Fits s) (h : CoreStep s e os t) : Bootstraps s e os t := by
  have quiet : Bootstraps s e [] s := .none rfl .inl
  cases h with
  | exited _ => exact quiet
  | thrown _ _ => exact quiet
  | ignored _ _ ha => exact quiet.advance ha
  | handled _ hh ha => exact (handled_bootstraps hi hh).advance ha

/-! ## The invariant -/

/-- The publication fits the phase; at most one bootstrap runs, and none where
there is nothing to bootstrap; a decided failure has its command running, and
an exited worker has none. -/
structure SlotInv (x : Env) : Prop where
  fits : Fits x.state
  once : bootstraps x.waiting ≤ 1
  begun : unbootstrapped x.state = true → bootstraps x.waiting = 0
  finishing : ∀ key, x.state.publication.fatalKey? = some key → key ∈ x.waiting
  ended : x.state.phase = .exited → x.state.publication.fatal? = none

end

theorem bootstraps_pos {ks : List Key} {id : String} (h : .bootstrap id ∈ ks) : 0 < bootstraps ks :=
  List.countP_pos_iff.2 ⟨_, h, rfl⟩

/-- An answered bootstrap no longer runs. -/
theorem bootstraps_answered {waiting : List Key} {e : Event} (hadm : ∀ key, e.answers? = some key → key ∈ waiting) :
    bootstraps (answered waiting e) ≤ bootstraps waiting ∧
      ((∃ id, e.answers? = some (.bootstrap id)) → bootstraps (answered waiting e) + 1 = bootstraps waiting) := by
  unfold answered
  cases he : e.answers? with
  | none => exact ⟨Nat.le_refl _, by simp⟩
  | some key =>
    refine ⟨(List.erase_sublist).countP_le, ?_⟩
    rintro ⟨id, h⟩
    cases h
    have hperm := List.perm_cons_erase (hadm _ he)
    have hcount : bootstraps waiting = bootstraps (.bootstrap id :: waiting.erase (.bootstrap id)) := hperm.countP_eq _
    rw [hcount]
    simp [bootstraps]

/-- The reducer throws on no completion of a running command. -/
theorem SlotInv.never_throws {x : Env} {e : Event} (hi : SlotInv x) (hadm : x.admits e = true)
    (hok : overrunsFatal x.state e = false) : ¬Throws x.state e := by
  have hadm := Env.admits_iff.1 hadm
  have cleaning : (x.state.publication = .cleanupSnapshot ∨ ∃ fatal, x.state.publication = .fatalSnapshot fatal .cleanup) →
      ¬∀ reason exit, x.state.phase ≠ .cleaning reason exit .publication := by
    intro hp hno
    have hc : x.state.phase.cleaningPublication = true := by
      apply hi.fits.cleaning
      rcases hp with hp | ⟨fatal, hp⟩ <;> simp [hp, Publication.ofCleanup]
    unfold Phase.cleaningPublication at hc
    split at hc
    · exact hno _ _ ‹_›
    · cases hc
  intro ht
  cases e with
  | bootstrapSucceeded id completion =>
    -- a bootstrap whose failure is being published has been answered
    obtain ⟨⟨proposed, hp⟩, _, hn⟩ := ht
    have hpos := bootstraps_pos (hadm _ rfl)
    have hzero := hi.begun (by simp [unbootstrapped, hp, hn])
    omega
  | turnCompleted record result =>
    obtain ⟨hm, hr, hs, hn⟩ := ht
    exact hn (executing_unpublished hi.fits hok hm (by rintro h; simp [h] at hs) hr)
  | snapshotSucceeded point record => exact cleaning ht.2.1 ht.2.2
  | snapshotFailed point record error => exact cleaning ht.2.1 ht.2.2
  | _ => exact ht

theorem slotInv_init : SlotInv Env.init.core where
  fits := init_fits
  once := Nat.zero_le _
  begun _ := rfl
  finishing := by simp [Env.init, Env.core, createInitialWorkerRuntimeState, Publication.fatalKey?]
  ended := by simp [Env.init, Env.core, createInitialWorkerRuntimeState]

theorem fatalKey_none {p : Publication} (h : p.fatal? = none) : p.fatalKey? = none := by
  cases p <;> first | rfl | cases h

/-- The completion of a fatal failure's command settles it. -/
theorem fatalKey_settledBy {p : Publication} {e : Event} {key : Key} (hp : p.fatalKey? = some key)
    (he : e.answers? = some key) : p.settledBy e = true := by
  cases p with
  | fatalSnapshot fatal after =>
    cases hp
    cases e <;> simp_all [Event.answers?, Publication.settledBy, Publication.snapshot, Event.completesSnapshot]
  | fatalPendingCleanup fatal =>
    cases hp
    cases e <;> simp_all [Event.answers?, Publication.settledBy, Event.completesCleanup]
  | _ => cases hp

theorem coreStep_exited {s t : State} {e : Event} {os : List Output} (hx : s.phase = .exited)
    (h : CoreStep s e os t) : os = [] ∧ t = s := by
  cases h with
  | exited _ => exact ⟨rfl, rfl⟩
  | thrown hn _ => exact absurd hx hn
  | ignored hn _ _ => exact absurd hx hn
  | handled hn _ _ => exact absurd hx hn

/-- A decided failure's command runs until its completion settles the publication. -/
theorem Slot.finishing {s t : State} {e : Event} {os : List Output} {waiting : List Key} (h : Slot s e os t)
    (hw : ∀ key, s.publication.fatalKey? = some key → key ∈ waiting) :
    ∀ key, t.publication.fatalKey? = some key → key ∈ answered waiting e ++ keys os := by
  intro key hk
  cases h with
  | same _ hpub he =>
    rw [hpub] at hk
    refine List.mem_append_left _ (mem_answered (hw key hk) fun ha => ?_)
    rw [fatalKey_settledBy hk ha] at he
    cases he
  | opened _ _ hkeys => exact List.mem_append_right _ (hkeys key hk)
  | settled _ _ hkeys _ => exact List.mem_append_right _ (hkeys key hk)
  | exited _ hf _ =>
    rw [fatalKey_none hf] at hk
    cases hk

theorem slotInv_step {x y : Env} {e : Event} {os : List Output} (hi : SlotInv x)
    (hok : overrunsFatal x.state e = false) (h : CoreEnvStep x e os y) : SlotInv y := by
  obtain ⟨⟨hst, hw⟩, hadm⟩ := h
  obtain ⟨hle, hans⟩ := bootstraps_answered (Env.admits_iff.1 hadm)
  have hb := coreStep_bootstraps hi.fits hst
  have honce := hi.once
  have hslot : x.state.phase ≠ .exited → Slot x.state e os y.state := fun hx =>
    coreStep_slot hi.fits hx hok (hi.never_throws hadm hok) hst
  have hfits : Fits y.state := coreStep_fits hi.fits hst
  constructor
  · exact hfits
  · rw [hw, bootstraps_append]
    cases hb with
    | none h0 _ => omega
    | one hs h1 _ _ =>
      have := hi.begun hs
      omega
  · intro hu
    rw [hw, bootstraps_append]
    cases hb with
    | none h0 h =>
      rcases h hu with hs | ha
      · have := hi.begun hs
        omega
      · have := hans ha
        omega
    | one _ _ ht _ =>
      rw [ht] at hu
      cases hu
  · intro key hk
    rw [hw]
    by_cases hx : x.state.phase = .exited
    · rw [(coreStep_exited hx hst).2, fatalKey_none (hi.ended hx)] at hk
      cases hk
    · exact (hslot hx).finishing hi.finishing key hk
  · intro hy
    by_cases hx : x.state.phase = .exited
    · rw [(coreStep_exited hx hst).2]
      exact hi.ended hx
    · cases hslot hx with
      | same ht _ _ => exact absurd hy ht
      | opened ht _ _ => exact absurd hy ht
      | settled ht _ _ _ => exact absurd hy ht
      | exited _ hf _ => exact hf

/-! ## The results -/

/-- No event that can arrive, and that `ok` lets through, makes the reducer throw. -/
def NeverThrows (ok : State → Event → Bool) (x : Env) : Prop :=
  ∀ e, x.admits e = true → ok x.state e = true → ∃ r, reduceWorkerRuntime x.state e = .ok r

/-- A step of an active publication keeps it, is the event it waits for, or ends the worker. -/
def KeepsSlot (ok : State → Event → Bool) (x : Env) : Prop :=
  ∀ e os y, EnvStep x e os y → ok x.state e = true → x.state.publication ≠ .none →
    y.state.publication = x.state.publication ∨ x.state.publication.settledBy e = true ∨ y.state.phase = .exited

/-- A decided failure is pending, with the command that finishes it running. -/
def FatalPending (fatal : PendingFatal) (x : Env) : Prop :=
  x.state.phase ≠ .exited ∧ x.state.publication.fatal? = some fatal ∧
    ∃ key, x.state.publication.fatalKey? = some key ∧ key ∈ x.waiting

/-- A failure decided on the way to `x` is pending there, or `worker.failed` was
emitted since, or an event that `lost` names has ended the worker. -/
def ReportsFatal (lost : Event → Bool) (step : Step Env Event Output) (h : Hist Event Output) (x : Env) : Prop :=
  ∀ pre post a fatal, h = pre ++ post → Run step Env.init pre a → Run step a post x →
    a.state.publication.fatal? = some fatal →
    FatalPending fatal x ∨ (emitted post).any (·.isFailed) = true ∨ (events post).any lost = true

/-- A lost transport. -/
def Event.isTransportFailed : Event → Bool
  | .transportFailed _ => true
  | _ => false

theorem slotInv_core {x : Env} (hi : SlotInv x.core) (hx : x.state.phase ≠ .exited) {fatal : PendingFatal}
    (hf : x.state.publication.fatal? = some fatal) : FatalPending fatal x := by
  refine ⟨hx, hf, ?_⟩
  cases hp : x.state.publication with
  | fatalSnapshot f after => exact ⟨_, rfl, hi.finishing _ (by simp [Env.core, hp, Publication.fatalKey?])⟩
  | fatalPendingCleanup f => exact ⟨_, rfl, hi.finishing _ (by simp [Env.core, hp, Publication.fatalKey?])⟩
  | _ => simp [hp, Publication.fatal?] at hf

theorem isFailed_tracked (os : List Output) : (tracked os).any (·.isFailed) = os.any (·.isFailed) := by
  have h : ∀ o : Output, o.tracked = false → o.isFailed = false := by
    intro o ho
    unfold Output.isFailed
    split
    · cases ho
    · rfl
  induction os with
  | nil => rfl
  | cons o os ih =>
    rw [tracked_cons, List.any_append, ih, List.any_cons]
    cases ht : o.tracked with
    | false => simp [h o ht]
    | true => simp

theorem reduce_total {s : State} {e : Event} (h : ¬Throws s e) : ∃ r, reduceWorkerRuntime s e = .ok r := by
  by_cases hx : s.phase = .exited ∧ e ≠ .runtimeStarted
  · unfold reduceWorkerRuntime
    rw [if_pos (by simpa using hx)]
    exact ⟨_, rfl⟩
  · cases hh : handle s e with
    | error m => exact absurd (handle_throws hh) h
    | ok r =>
      obtain ⟨a, _, hr⟩ := reduce_ok hx hh
      exact ⟨_, hr⟩

theorem overrunsFatal_core (s : State) (e : Event) : overrunsFatal s.core e = overrunsFatal s e := by
  cases e <;> rfl

/-- A run in which nothing overruns a fatal snapshot. -/
abbrev SafeStep : Step Env Event Output := Guard EnvStep fun x e => (!overrunsFatal x.state e) = true

theorem safeStep_inv {x y : Env} {e : Event} {os : List Output} (hi : SlotInv x.core) (h : SafeStep x e os y) :
    SlotInv y.core :=
  slotInv_step hi ((overrunsFatal_core x.state e).trans (by simpa using h.2)) (envStep_core h.1)

theorem slotInv_run {h : Hist Event Output} {x : Env} (hr : Run SafeStep Env.init h x) : SlotInv x.core :=
  hr.inv (fun x => SlotInv x.core) slotInv_init fun _ _ _ _ hi hst => safeStep_inv hi hst

/-- What a safe step does to the publication. -/
theorem safeStep_slot {x y : Env} {e : Event} {os : List Output} (hi : SlotInv x.core) (hx : x.state.phase ≠ .exited)
    (h : EnvStep x e os y) (hok : overrunsFatal x.state e = false) :
    Slot x.state.core e (tracked os) y.state.core := by
  have hok : overrunsFatal x.state.core e = false := (overrunsFatal_core x.state e).trans hok
  exact coreStep_slot hi.fits hx hok (hi.never_throws h.2 hok) (step_core h.1.1)

theorem keepsSlot {x : Env} (hi : SlotInv x.core) : KeepsSlot (fun s e => !overrunsFatal s e) x := by
  intro e os y hst hok hn
  by_cases hx : x.state.phase = .exited
  · obtain ⟨_, hy⟩ := coreStep_exited (s := x.state.core) hx (step_core hst.1.1)
    have h := congrArg State.publication hy
    exact .inl h
  · cases safeStep_slot hi hx hst (by simpa using hok) with
    | same _ hpub _ => exact .inl hpub
    | opened _ hnone _ => exact absurd hnone hn
    | settled _ he _ _ => exact .inr (.inl he)
    | exited hy _ _ => exact .inr (.inr hy)

theorem reportsFatal {h : Hist Event Output} {x : Env} : ReportsFatal Event.isTransportFailed SafeStep h x := by
  intro pre post a fatal _ hpre hpost hf
  have ha := slotInv_run hpre
  have hx : a.state.phase ≠ .exited := by
    intro hx
    have h := ha.ended hx
    simp only [Env.core, core_publication, hf] at h
    cases h
  have hu := hpost.until
    (fun y => SlotInv y.core ∧ y.state.phase ≠ .exited ∧ y.state.publication.fatal? = some fatal)
    (fun e os => os.any (·.isFailed) = true ∨ e.isTransportFailed = true) ⟨ha, hx, hf⟩ ?_
  · rcases hu with ⟨hi, hx, hf⟩ | ⟨step, hmem, hfailed | hlost⟩
    · exact .inl (slotInv_core hi hx hf)
    · obtain ⟨o, ho, hof⟩ := List.any_eq_true.1 hfailed
      exact .inr (.inl (List.any_eq_true.2 ⟨o, List.mem_flatMap.2 ⟨step, hmem, ho⟩, hof⟩))
    · exact .inr (.inr (List.any_eq_true.2 ⟨step.1, List.mem_map.2 ⟨step, hmem, rfl⟩, hlost⟩))
  · -- one step of a pending failure
    rintro b e os c ⟨hi, hx, hf⟩ hst
    have hc := safeStep_inv hi hst
    cases safeStep_slot hi hx hst.1 (by simpa using hst.2) with
    | same hy hpub _ => exact .inl ⟨hc, hy, (congrArg Publication.fatal? hpub).trans hf⟩
    | opened _ hn _ =>
      have hn : b.state.publication = .none := hn
      simp [hn, Publication.fatal?] at hf
    | settled hy _ _ hk => exact .inl ⟨hc, hy, hk fatal hf⟩
    | exited _ _ he =>
      refine .inr ?_
      have hne : b.state.core.publication.fatal? ≠ none := by simp [hf]
      rcases he hne with he | ⟨error, rfl⟩
      · exact .inl (isFailed_tracked os ▸ he)
      · exact .inr rfl

/-- In every run in which nothing overruns a fatal snapshot, the reducer does
not throw, the publication slot is not overwritten, and a decided failure is
reported unless the transport is lost. -/
theorem publication_safe {h : Hist Event Output} {x : Env} (hr : Run SafeStep Env.init h x) :
    NeverThrows (fun s e => !overrunsFatal s e) x ∧ KeepsSlot (fun s e => !overrunsFatal s e) x ∧
      ReportsFatal Event.isTransportFailed SafeStep h x := by
  have hi := slotInv_run hr
  refine ⟨fun e hadm hok => reduce_total fun ht => ?_, keepsSlot hi, reportsFatal⟩
  have hok : overrunsFatal x.core.state e = false := (overrunsFatal_core x.state e).trans (by simpa using hok)
  exact hi.never_throws hadm hok (throws_core.2 ht)

/-- A worker of a process in error that decides a fatal failure while it waits for acceptance. -/
def demoFatal : List Event := demoReady (.llm false none) .error ++ [.invariantFailed demoError]

/-- Its snapshot is taken, and the failure is reported. -/
theorem publication_safe_demo :
    NeverThrows (fun s e => !overrunsFatal s e) (envAfter demoFatal) ∧
      KeepsSlot (fun s e => !overrunsFatal s e) (envAfter demoFatal) ∧
        ReportsFatal Event.isTransportFailed SafeStep (envHistory demoFatal) (envAfter demoFatal) :=
  publication_safe (env_run_guarded (fun x e => !overrunsFatal x.state e) demoFatal (by decide))

/-- A lost transport ends the worker without a report of the failure it has decided. -/
theorem publication_safe_fails :
    ¬∀ h x, Run EnvStep Env.init h x →
      NeverThrows (fun _ _ => true) x ∧ KeepsSlot (fun _ _ => true) x ∧ ReportsFatal (fun _ => false) EnvStep h x := by
  intro H
  have hpre := env_run demoFatal (by decide)
  have hpost : Run EnvStep (envAfter demoFatal) _ _ :=
    Run.single ⟨env_moves (envAfter demoFatal) (.transportFailed demoError), by decide⟩
  obtain ⟨fatal, hf⟩ : ∃ fatal, (envAfter demoFatal).state.publication.fatal? = some fatal :=
    Option.isSome_iff_exists.1 (by decide)
  rcases (H _ _ (hpre.append hpost)).2.2 _ _ _ fatal rfl hpre hpost hf with h | h | h
  · exact h.1 (by decide)
  · exact absurd h (by decide)
  · exact absurd h (by decide)

end Leitwerk.Worker
