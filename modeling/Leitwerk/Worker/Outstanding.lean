import Leitwerk.Worker.Execution
/-!
# The worker and the commands it waits for

An emitted command runs until a completion event answers it. `EnvStep` is the
worker together with the commands still unanswered: a completion has to answer
one of them, and answers it once; every other event may arrive at any time.

`State.awaits` is what a state waits for. A step waits for nothing new but what
it emits, and no longer for what its event answers (`handled_awaits`), unless
it abandons an operation (`abandons`).
-/

namespace Leitwerk.Worker

open Runs

/-! ## Commands and their completions -/

/-- A command, as its completion names it. -/
inductive Key where
  | bootstrap (startRecordId : String)
  | activate (startRecordId turnRecordId : String)
  | deliverInputs (headSequence : Nat)
  | executeTurn (turnRecordId : String)
  | uploadSnapshot (point : SnapshotPoint) (turnRecordId : Option String)
  | cleanup
  deriving DecidableEq

/-- The key of a command that is answered. -/
def Output.key? : Output → Option Key
  | .command (.bootstrap startRecordId _) => some (.bootstrap startRecordId)
  | .command (.activate startRecordId turnRecordId _) => some (.activate startRecordId turnRecordId)
  | .command (.deliverInputs headSequence _ _) => some (.deliverInputs headSequence)
  | .command (.executeTurn turnRecordId _ _) => some (.executeTurn turnRecordId)
  | .command (.uploadSnapshot snapshot _) => some (.uploadSnapshot snapshot.point snapshot.turnRecordId)
  | .command .cleanup => some .cleanup
  | _ => none

/-- The commands among the outputs, by their keys. -/
def keys (os : List Output) : List Key := os.filterMap (·.key?)

/-- The command a completion event answers. -/
def Event.answers? : Event → Option Key
  | .bootstrapSucceeded startRecordId _ | .bootstrapFailed startRecordId _ _ => some (.bootstrap startRecordId)
  | .activationSucceeded startRecordId turnRecordId _ | .activationFailed startRecordId turnRecordId _ =>
    some (.activate startRecordId turnRecordId)
  | .inputsDelivered headSequence _ _ | .inputDeliveryFailed headSequence _ => some (.deliverInputs headSequence)
  | .turnCompleted turnRecordId _ | .turnDefect turnRecordId _ => some (.executeTurn turnRecordId)
  | .snapshotSucceeded point turnRecordId | .snapshotFailed point turnRecordId _ =>
    some (.uploadSnapshot point turnRecordId)
  | .cleanupSucceeded | .cleanupFailed _ => some .cleanup
  | _ => none

@[simp] theorem keys_nil : keys [] = [] := rfl
@[simp] theorem keys_append (a b : List Output) : keys (a ++ b) = keys a ++ keys b := by simp [keys]
@[simp] theorem keys_cons (o : Output) (os : List Output) : keys (o :: os) = o.key?.toList ++ keys os := by
  cases h : o.key? <;> simp [keys, h]

theorem keys_tracked (os : List Output) : keys (tracked os) = keys os := by
  refine filterMap_tracked (fun o h => ?_) os
  unfold Output.key?
  split <;> first | rfl | cases h

/-- The commands left after an event: a completion answers one of them. -/
def answered (waiting : List Key) (e : Event) : List Key :=
  match e.answers? with
  | some key => waiting.erase key
  | none => waiting

/-- The worker and its unanswered commands. -/
structure Env where
  state : State
  waiting : List Key

/-- A worker that has not started, with nothing to wait for. -/
def Env.init : Env := ⟨createInitialWorkerRuntimeState, []⟩

/-- A completion arrives only for an unanswered command. -/
def Env.admits (x : Env) (e : Event) : Bool := e.answers?.all fun key => x.waiting.contains key

/-- The worker after an event, with the commands it has to wait for then. -/
def Env.next (x : Env) (e : Event) : Env :=
  ⟨(step x.state e).state, answered x.waiting e ++ keys (step x.state e).outputs⟩

/-- A step of the worker with the commands it waits for, whether or not the event can arrive. -/
def EnvMove : Step Env Event Output :=
  fun x e os y => WorkerStep x.state e os y.state ∧ y.waiting = answered x.waiting e ++ keys os

theorem env_moves (x : Env) (e : Event) : EnvMove x e (step x.state e).outputs (x.next e) := ⟨rfl, rfl⟩

/-- The worker with the commands it waits for. -/
def EnvStep : Step Env Event Output := Guard EnvMove fun x e => x.admits e = true

/-- The same on the core. -/
def CoreEnvStep : Step Env Event Output :=
  Guard (fun x e os y => CoreStep x.state e os y.state ∧ y.waiting = answered x.waiting e ++ keys os)
    fun x e => x.admits e = true

/-- The core of a worker, with the same commands. -/
def Env.core (x : Env) : Env := ⟨x.state.core, x.waiting⟩

theorem envStep_core {x y : Env} {e : Event} {os : List Output} (h : EnvStep x e os y) :
    CoreEnvStep x.core e (tracked os) y.core :=
  ⟨⟨step_core h.1.1, by rw [keys_tracked]; exact h.1.2⟩, h.2⟩

/-- The history of a worker that meets these events. -/
def envHistory (es : List Event) : Hist Event Output :=
  play Env.next (fun x e => (step x.state e).outputs) Env.init es

/-- The worker that met these events, with its commands. -/
def envAfter (es : List Event) : Env := es.foldl Env.next Env.init

theorem env_run_guarded (ok : Env → Event → Bool) (es : List Event)
    (h : allOk Env.next (fun x e => x.admits e && ok x e) Env.init es = true) :
    Run (Guard EnvStep fun x e => ok x e = true) Env.init (envHistory es) (envAfter es) := by
  have hr := run_guarded Env.next (fun x e => (step x.state e).outputs) env_moves h
  refine hr.mono fun x e os y hst => ?_
  obtain ⟨hst, hok⟩ := hst
  rw [Bool.and_eq_true] at hok
  exact ⟨⟨hst, hok.1⟩, hok.2⟩

theorem env_run (es : List Event) (h : allOk Env.next (fun x e => x.admits e && true) Env.init es = true) :
    Run EnvStep Env.init (envHistory es) (envAfter es) :=
  (env_run_guarded (fun _ _ => true) es h).of_guard

theorem Env.admits_iff {x : Env} {e : Event} :
    x.admits e = true ↔ ∀ key, e.answers? = some key → key ∈ x.waiting := by
  unfold Env.admits
  cases e.answers? <;> simp

theorem mem_answered {waiting : List Key} {e : Event} {key : Key} (hk : key ∈ waiting)
    (he : e.answers? ≠ some key) : key ∈ answered waiting e := by
  unfold answered
  split
  · rename_i answer ha
    exact (List.mem_erase_of_ne (by rintro rfl; exact he ha)).2 hk
  · exact hk

/-! ## What a state waits for -/

/-- The operation a phase waits for. A worker whose bootstrap has failed stays
in its phase until the fatal snapshot is taken; it waits for no bootstrap. -/
def State.operationKey? (s : State) : Option Key :=
  match s.phase with
  | .bootstrapping id _ => if s.publication = .none then some (.bootstrap id) else none
  | .activating id record => some (.activate id record)
  | .active _ record .executing => some (.executeTurn record)
  | .draining _ _ (some (.bootstrap id _)) => some (.bootstrap id)
  | .draining _ _ (some (.activation id record)) => some (.activate id record)
  | .draining _ _ (some (.turn record)) => some (.executeTurn record)
  | _ => none

/-- The delivery in flight. -/
def State.deliveryKey? (s : State) : Option Key := s.deliveryHeadSequence.map .deliverInputs

/-- The snapshot in flight. -/
def State.snapshotKey? (s : State) : Option Key :=
  s.publication.snapshot.map fun snapshot => .uploadSnapshot snapshot.point snapshot.turnRecordId

/-- The commands a state waits for. An exited worker ignores every event. -/
def State.awaits (s : State) : List Key :=
  if s.phase = .exited then []
  else s.operationKey?.toList ++ s.deliveryKey?.toList ++ s.snapshotKey?.toList

theorem mem_awaits {s : State} {key : Key} :
    key ∈ s.awaits ↔ s.phase ≠ .exited ∧
      (s.operationKey? = some key ∨ s.deliveryKey? = some key ∨ s.snapshotKey? = some key) := by
  unfold State.awaits
  split <;> simp_all

/-- A failure that ends the worker in the same step. -/
def exitsAtOnce (s : State) : Bool :=
  !parks (failureContext s) && (s.session.isNone || hasActivePublication s)

/-- The steps after which the state waits for a command that is answered already:
a failed activation or a turn defect that does not end the worker, a stop
request after a failed bootstrap, a delivery reported while other inputs are at
the head of the queue, and a turn completion that throws. -/
def abandons (s : State) : Event → Bool
  | .activationFailed id record _ => s.phase == .activating id record && !exitsAtOnce s
  | .turnDefect record _ =>
    match s.phase with
    | .active _ executing .executing => executing == record && !exitsAtOnce s
    | _ => false
  | .stopRequested _ _ | .serverMessage (.stop _) =>
    match s.phase with
    | .bootstrapping _ _ => hasActivePublication s
    | _ => false
  | .inputsDelivered headSequence _ _ =>
    s.phase != .exited && s.deliveryHeadSequence == some headSequence &&
      s.inputQueue.head?.map (·.sequence) != some headSequence
  | .turnCompleted record result =>
    matchesTurn s record && s.session.any (·.kind == .llm) && hasActivePublication s &&
      match result.result with
      | .parked _ => false
      | _ => true
  | _ => false

/-! ## Which publications a phase can have -/

/-- No publication but a fatal snapshot that ends the worker. -/
def Publication.quietOrFatal : Publication → Bool
  | .none | .fatalSnapshot _ .exit => true
  | _ => false

/-- A publication of the first stage of a cleanup. -/
def Publication.ofCleanup : Publication → Bool
  | .cleanupSnapshot | .fatalSnapshot _ .cleanup => true
  | _ => false

theorem Publication.quiet_spec {p : Publication} (h : p.quietOrFatal = true) :
    p.ofCleanup = false ∧ ∀ fatal, p ≠ .fatalPendingCleanup fatal := by
  unfold Publication.quietOrFatal at h
  split at h
  · exact ⟨rfl, by simp⟩
  · exact ⟨rfl, by simp⟩
  · cases h

/-- The phases with a bootstrap still to finish. -/
def Phase.beforeSession : Phase → Bool
  | .init | .waitingForStart | .bootstrapping _ _ => true
  | _ => false

/-- The first stage of a cleanup. -/
def Phase.cleaningPublication : Phase → Bool
  | .cleaning _ _ .publication => true
  | _ => false

/-- What a phase says about the session and the publication. -/
structure Fits (s : State) : Prop where
  sessionless : s.phase.beforeSession = true → s.session = none
  unpublished : s.phase.beforeStart = true → s.publication = .none
  bootstrapping : s.phase.beforeSession = true → s.publication.quietOrFatal = true
  executing : s.phase.executing? ≠ none → s.publication.quietOrFatal = true
  cleaning : s.publication.ofCleanup = true → s.phase.cleaningPublication = true
  pendingCleanup : ∀ fatal, s.publication = .fatalPendingCleanup fatal → s.phase.cleaningResources = true

section
variable {s t : State} {e : Event} {os : List Output}

theorem init_fits : Fits createInitialWorkerRuntimeState.core := by
  constructor <;> simp [createInitialWorkerRuntimeState, Publication.quietOrFatal, Publication.ofCleanup]

/-- A phase, a session and a publication as they were, or no publication. -/
theorem Fits.keep (hi : Fits s) (hp : t.phase = s.phase) (hs : t.session = s.session)
    (hpub : t.publication = s.publication ∨ t.publication = .none) : Fits t := by
  rcases hpub with hpub | hpub
  · constructor <;> rw [hp] <;> (try rw [hs]) <;> (try rw [hpub])
    · exact hi.sessionless
    · exact hi.unpublished
    · exact hi.bootstrapping
    · exact hi.executing
    · exact hi.cleaning
    · exact hi.pendingCleanup
  · refine ⟨?_, ?_, ?_, ?_, ?_, ?_⟩
    · rw [hp, hs]
      exact hi.sessionless
    all_goals simp [hpub, Publication.quietOrFatal, Publication.ofCleanup]

/-- A phase that has a session and executes nothing. -/
theorem Fits.settled (hb : t.phase.beforeSession = false) (hx : t.phase.executing? = none)
    (hc : t.publication.ofCleanup = true → t.phase.cleaningPublication = true)
    (hf : ∀ fatal, t.publication = .fatalPendingCleanup fatal → t.phase.cleaningResources = true) : Fits t where
  sessionless h := by rw [hb] at h; cases h
  unpublished h := by
    exfalso
    unfold Phase.beforeStart at h
    unfold Phase.beforeSession at hb
    split at h <;> simp_all
  bootstrapping h := by rw [hb] at h; cases h
  executing h := absurd hx h
  cleaning := hc
  pendingCleanup := hf

theorem fatal_fits {source : Option SnapshotSource} (hi : Fits s)
    (hsrc : s.phase.beforeStart = true → source = none) (h : Fatal s source os t) : Fits t := by
  cases h with
  | @snapshot src fatal hsome hn =>
    have hafter : s.phase.cleaningPublication = false → afterFatalSnapshot s = .exit := by
      unfold Phase.cleaningPublication afterFatalSnapshot
      split <;> simp_all
    have hclean : s.phase.beforeSession = true ∨ s.phase.executing? ≠ none → s.phase.cleaningPublication = false := by
      cases s.phase <;> simp [Phase.beforeSession, Phase.executing?, Phase.cleaningPublication]
    constructor
    · exact hi.sessionless
    · intro hb
      rw [hsrc hb] at hsome
      cases hsome
    · intro hb
      simp [hafter (hclean (.inl hb)), Publication.quietOrFatal]
    · intro hx
      simp [hafter (hclean (.inr hx)), Publication.quietOrFatal]
    · intro ho
      unfold afterFatalSnapshot at ho
      unfold Phase.cleaningPublication
      split at ho
      · rename_i hp
        simp [hp]
      · cases ho
    · intro fatal' h
      cases h
  | exit _ => exact Fits.settled rfl rfl (by simp [Publication.ofCleanup]) (by simp)

theorem dispatch_fits (hi : Fits s) (h : Dispatch s os t) : Fits t := by
  cases h with
  | parked _ => exact hi
  | fatal _ hf =>
    refine fatal_fits hi (fun hb => ?_) hf
    have : s.phase.beforeSession = true := by
      unfold Phase.beforeStart at hb
      unfold Phase.beforeSession
      split at hb <;> simp_all
    simp [State.source, hi.sessionless this]

theorem executing_of_matches {record : String} (hm : matchesTurn s record = true) : s.phase.executing? ≠ none := by
  rw [matchesTurn_iff.1 hm]
  simp

/-- What an event does keeps the publication fitting its phase. -/
theorem handled_fits (hi : Fits s) (h : Handled s e os t) : Fits t := by
  have hturn : ∀ {record} {result}, matchesTurn s record = true →
      (turnDone s result).state.phase.beforeSession = false ∧ (turnDone s result).state.phase.executing? = none := by
    intro record result hm
    obtain ⟨_, hx, _, hb, _⟩ := Phase.over_spec (turnDone_phase s result hm)
    refine ⟨?_, hx⟩
    unfold Phase.beforeSession
    unfold Phase.beforeExecution at hb
    split <;> simp_all
  have uncleaned : ∀ (p : Phase), s.phase.cleaningPublication = false → s.phase.cleaningResources = false →
      (s.publication.ofCleanup = true → p.cleaningPublication = true) ∧
        ∀ fatal, s.publication = .fatalPendingCleanup fatal → p.cleaningResources = true := by
    intro p hp hr
    refine ⟨fun h => ?_, fun fatal h => ?_⟩
    · rw [hi.cleaning h] at hp
      cases hp
    · rw [hi.pendingCleanup fatal h] at hr
      cases hr
  have settled : ∀ {t : State}, t.publication = s.publication → s.phase.cleaningPublication = false →
      s.phase.cleaningResources = false → t.phase.beforeSession = false → t.phase.executing? = none → Fits t := by
    intro t hpub hp hr hb hx
    refine Fits.settled hb hx ?_ ?_ <;> rw [hpub]
    · exact (uncleaned _ hp hr).1
    · exact (uncleaned _ hp hr).2
  cases h with
  | started hp =>
    refine ⟨fun _ => hi.sessionless (by simp [hp, Phase.beforeSession]), fun _ => ?_, fun _ => ?_, by
      simp [Phase.executing?], fun h => ?_, fun fatal h => ?_⟩
    · exact hi.unpublished (by simp [hp, Phase.beforeStart])
    · exact hi.bootstrapping (by simp [hp, Phase.beforeSession])
    all_goals simp [hi.unpublished (by simp [hp, Phase.beforeStart]), Publication.ofCleanup] at h
  | reconnected hp => exact hi.keep rfl rfl (.inl (by simp [State.awaiting, hp]))
  | transportLost => exact Fits.settled rfl rfl (by simp [Publication.ofCleanup]) (by simp)
  | stopped he hs =>
    have hn : s.phase.cleaningPublication = false ∧ s.phase.cleaningResources = false := by
      cases hp : s.phase <;> simp [hp, Phase.stopping, Phase.cleaningPublication, Phase.cleaningResources] at hs ⊢
    refine ⟨by simp [Phase.beforeSession], by simp [Phase.beforeStart], by simp [Phase.beforeSession], ?_,
      (uncleaned _ hn.1 hn.2).1, (uncleaned _ hn.1 hn.2).2⟩
    simp only [drainingOperation_executing s hs]
    exact hi.executing
  | tainted => exact hi.keep rfl rfl (.inl rfl)
  | start hp =>
    have hn : s.publication = .none := hi.unpublished (by simp [hp, Phase.beforeStart])
    refine ⟨fun _ => hi.sessionless (by simp [hp, Phase.beforeSession]), by simp [Phase.beforeStart], ?_,
      by simp [Phase.executing?], ?_, ?_⟩ <;> simp [hn, Publication.quietOrFatal, Publication.ofCleanup]
  | batch _ _ =>
    unfold onInputBatch
    split <;> exact hi.keep rfl rfl (.inl rfl)
  | acceptedEarly hp => exact settled rfl (by rw [hp]; rfl) (by rw [hp]; rfl) rfl rfl
  | accepted hp _ => exact settled rfl (by rw [hp]; rfl) (by rw [hp]; rfl) rfl rfl
  | acknowledged _ => exact hi.keep rfl rfl (.inr rfl)
  | bootstrapDrained hp =>
    refine settled rfl (by rw [hp]; rfl) (by rw [hp]; rfl) ?_ ?_ <;>
    · simp [bootstrapped, hp]
      rfl
  | @bootstrapReadied startId completion _ _ p hp hpub =>
    have hn : p.ofCleanup = false ∧ ∀ fatal, p ≠ .fatalPendingCleanup fatal := by
      rcases hpub with ⟨rfl, _⟩ | ⟨_, rfl, _⟩
      · exact Publication.quiet_spec (hi.bootstrapping (by rw [hp]; rfl))
      · exact ⟨rfl, by simp⟩
    refine Fits.settled ?_ ?_ (by simp [hn.1]) (by simp [hn.2]) <;>
    · simp [bootstrapped, hp]
      rfl
  | bootstrapFailed hp hf => exact fatal_fits hi (by simp [hp, Phase.beforeStart]) hf
  | activated hp => exact settled rfl (by rw [hp]; rfl) (by rw [hp]; rfl) rfl rfl
  | activationDrained hp => exact settled rfl (by rw [hp]; rfl) (by rw [hp]; rfl) rfl rfl
  | operationDrained hp _ => exact settled rfl (by rw [hp]; rfl) (by rw [hp]; rfl) rfl rfl
  | activationFailed _ hd => exact dispatch_fits hi hd
  | turnDefect _ hd => exact dispatch_fits hi hd
  | delivered _ =>
    unfold onInputsDelivered
    split <;> exact hi.keep rfl rfl (.inl rfl)
  | deliveryDrained _ _ => exact hi.keep rfl rfl (.inl rfl)
  | deliveryFailed _ _ hd => exact dispatch_fits (s := { s with deliveryHeadSequence := none }) (hi.keep rfl rfl (.inl rfl)) hd
  | turnQuiet hm _ =>
    obtain ⟨hc, hf⟩ := Publication.quiet_spec (hi.executing (executing_of_matches hm))
    refine Fits.settled (hturn hm).1 (hturn hm).2 ?_ ?_ <;> rw [turnDone_publication]
    · simp [hc]
    · simp [hf]
  | @turnPublished record result pending hm _ _ =>
    refine Fits.settled (hturn hm).1 (hturn hm).2 ?_ ?_ <;> simp [State.awaiting, Publication.ofCleanup]
  | @turnSnapshot record result pending src hm _ _ _ =>
    refine Fits.settled (hturn hm).1 (hturn hm).2 ?_ ?_ <;> simp [Publication.ofCleanup]
  | readyUploaded _ _ => exact hi.keep rfl rfl (.inr rfl)
  | terminalUploaded hp =>
    refine Fits.settled ?_ ?_ (by simp [State.awaiting, Publication.ofCleanup]) (by simp [State.awaiting])
    · have hq := hi.bootstrapping
      simp only [hp, Publication.quietOrFatal] at hq
      simpa [State.awaiting] using hq
    · have hq := hi.executing
      simp only [hp, Publication.quietOrFatal] at hq
      simpa [State.awaiting] using hq
  | terminalUploadFailed hp hid => exact hi.keep rfl rfl (.inr rfl)
  | cleanupUploaded _ _ => exact Fits.settled rfl rfl (by simp [Publication.ofCleanup]) (by simp)
  | cleanupUploadFailed _ hp hf =>
    exact fatal_fits (s := { s with publication := .none }) (hi.keep rfl rfl (.inr rfl)) (by simp [hp, Phase.beforeStart]) hf
  | fatalUploaded _ _ => exact Fits.settled rfl rfl (by simp [Publication.ofCleanup]) (by simp)
  | fatalCleaning _ _ _ =>
    exact Fits.settled rfl rfl (by simp [Publication.ofCleanup]) (by simp [Phase.cleaningResources])
  | retried hp _ _ => exact hi.keep rfl rfl (.inl (by simp [State.awaiting, hp]))
  | retryLapsed _ _ => exact hi.keep rfl rfl (.inl rfl)
  | cleanedFatal _ _ => exact Fits.settled rfl rfl (by simp [Publication.ofCleanup]) (by simp)
  | cleaned hc hp =>
    refine Fits.settled rfl rfl (fun h => ?_) (fun fatal h => absurd h (hp fatal))
    have h := hi.cleaning h
    unfold Phase.cleaningResources at hc
    unfold Phase.cleaningPublication at h
    split at hc <;> simp_all
  | cleanupFailed hc hf =>
    refine fatal_fits hi (fun hb => ?_) hf
    cases hp : s.phase <;> simp [hp, Phase.beforeStart, Phase.cleaningResources] at hb hc
  | invariantFailed hd => exact dispatch_fits hi hd

theorem handlesInputs_none (h : handlesInputs s = true) : s.deliveryHeadSequence = none ∧ s.publication = .none := by
  simp only [handlesInputs, Bool.and_eq_true, Option.isNone_iff_eq_none, beq_iff_eq] at h
  exact h.1

theorem advanced_fits (hi : Fits s) (h : Advanced s os t) : Fits t := by
  induction h with
  | rest _ => exact hi
  | activate _ hn _ => exact Fits.settled rfl rfl (by simp [hn, Publication.ofCleanup]) (by simp [hn])
  | ready _ hn _ ih => exact ih (Fits.settled rfl rfl (by simp [hn, Publication.ofCleanup]) (by simp [hn]))
  | cleanupSnapshot _ _ _ => exact Fits.settled rfl rfl (by simp [Phase.cleaningPublication]) (by simp)
  | cleanup _ _ hn => exact Fits.settled rfl rfl (by simp [hn, Publication.ofCleanup]) (by simp [hn])
  | ignore _ _ _ ih => exact ih (hi.keep rfl rfl (.inl rfl))
  | deliver _ _ => exact hi.keep rfl rfl (.inl rfl)
  | execute hh _ _ _ =>
    have hn := (handlesInputs_none hh).2
    refine ⟨by simp [Phase.beforeSession], by simp [Phase.beforeStart], by simp [Phase.beforeSession], ?_, ?_, ?_⟩ <;>
      simp [hn, Publication.quietOrFatal, Publication.ofCleanup]

theorem coreStep_fits (hi : Fits s) (h : CoreStep s e os t) : Fits t := by
  cases h with
  | exited _ => exact hi
  | thrown _ _ => exact hi
  | ignored _ _ ha => exact advanced_fits hi ha
  | handled _ hh ha => exact advanced_fits (handled_fits hi hh) ha

/-! ## How a step changes what a state waits for -/

/-- After a step the state waits only for what the step emitted, and for what
it waited for and the event did not answer. -/
def Waits (s : State) (e : Event) (os : List Output) (t : State) : Prop :=
  ∀ key, key ∈ t.awaits → key ∈ keys os ∨ key ∈ s.awaits ∧ e.answers? ≠ some key

/-- Operation, delivery and snapshot, each on its own. -/
theorem waits_of_parts (hx : s.phase ≠ .exited)
    (ho : ∀ key, t.operationKey? = some key → key ∈ keys os ∨ s.operationKey? = some key ∧ e.answers? ≠ some key)
    (hd : t.phase ≠ .exited → ∀ n, t.deliveryHeadSequence = some n →
      .deliverInputs n ∈ keys os ∨ s.deliveryHeadSequence = some n ∧ e.answers? ≠ some (.deliverInputs n))
    (hs : t.phase ≠ .exited → ∀ p, t.publication.snapshot = some p →
      .uploadSnapshot p.point p.turnRecordId ∈ keys os ∨
        s.publication.snapshot = some p ∧ e.answers? ≠ some (.uploadSnapshot p.point p.turnRecordId)) :
    Waits s e os t := by
  intro key hk
  rw [mem_awaits] at hk ⊢
  obtain ⟨ht, hk | hk | hk⟩ := hk
  · rcases ho key hk with h | ⟨h, ha⟩
    · exact .inl h
    · exact .inr ⟨⟨hx, .inl h⟩, ha⟩
  · obtain ⟨n, hn, rfl⟩ := Option.map_eq_some_iff.1 hk
    rcases hd ht n hn with h | ⟨h, ha⟩
    · exact .inl h
    · exact .inr ⟨⟨hx, .inr (.inl (by simp [State.deliveryKey?, h]))⟩, ha⟩
  · obtain ⟨p, hp, rfl⟩ := Option.map_eq_some_iff.1 hk
    rcases hs ht p hp with h | ⟨h, ha⟩
    · exact .inl h
    · exact .inr ⟨⟨hx, .inr (.inr (by simp [State.snapshotKey?, h]))⟩, ha⟩

/-- An exited worker waits for nothing. -/
theorem waits_exited (ht : t.phase = .exited) : Waits s e os t := by
  intro key hk
  exact absurd ht (mem_awaits.1 hk).1

/-- A step that waits for no more than before, on an event that answers nothing. -/
theorem waits_quiet (hx : s.phase ≠ .exited) (ha : e.answers? = none)
    (ho : ∀ key, t.operationKey? = some key → s.operationKey? = some key)
    (hd : t.deliveryHeadSequence = s.deliveryHeadSequence)
    (hs : ∀ p, t.publication.snapshot = some p → s.publication.snapshot = some p) : Waits s e os t :=
  waits_of_parts hx (fun key h => .inr ⟨ho key h, by simp [ha]⟩) (fun _ n h => .inr ⟨hd ▸ h, by simp [ha]⟩)
    (fun _ p h => .inr ⟨hs p h, by simp [ha]⟩)

/-- A step out of an operation: it waits for no operation, and delivery and snapshot stay. -/
theorem waits_done (hx : s.phase ≠ .exited) (ho : t.operationKey? = none)
    (hd : t.deliveryHeadSequence = s.deliveryHeadSequence) (hs : t.publication = s.publication)
    (hn : ∀ n, e.answers? ≠ some (.deliverInputs n)) (hp : ∀ p r, e.answers? ≠ some (.uploadSnapshot p r)) :
    Waits s e os t :=
  waits_of_parts hx (fun key h => by rw [ho] at h; cases h) (fun _ n h => .inr ⟨hd ▸ h, hn n⟩)
    (fun _ p h => .inr ⟨hs ▸ h, hp _ _⟩)

theorem operationKey_publication {p : Publication} {key : Key}
    (h : ({ s with publication := p } : State).operationKey? = some key)
    (hn : s.publication = .none ∨ ∀ id proposed, s.phase ≠ .bootstrapping id proposed) :
    s.operationKey? = some key := by
  unfold State.operationKey? at h ⊢
  split at h
  · rename_i id proposed hp
    rcases hn with hn | hn
    · simp only [hn]
      split at h <;> simp_all
    · exact absurd hp (hn id proposed)
  all_goals simp_all

/-- A fatal failure on an event that answers neither the operation nor the delivery. -/
theorem fatal_waits {source : Option SnapshotSource} (hx : s.phase ≠ .exited) (h : Fatal s source os t)
    (ho : ∀ key, t.operationKey? = some key → e.answers? ≠ some key)
    (hd : ∀ n, e.answers? ≠ some (.deliverInputs n)) : Waits s e os t := by
  cases h with
  | snapshot _ hn =>
    refine waits_of_parts hx (fun key h => .inr ⟨operationKey_publication h (.inl hn), ho key h⟩)
      (fun _ n h => .inr ⟨h, hd n⟩) (fun _ p h => .inl ?_)
    cases h
    simp [fatalUpload, Output.key?]
  | exit _ => exact waits_exited rfl

theorem dispatch_waits (hx : s.phase ≠ .exited) (h : Dispatch s os t)
    (ha : e.answers? = none) : Waits s e os t := by
  cases h with
  | parked _ => exact waits_quiet hx ha (fun _ h => h) rfl (fun _ h => h)
  | fatal _ hf => exact fatal_waits hx hf (by simp [ha]) (by simp [ha])

/-- A dispatch failure that ends the worker waits for nothing. -/
theorem dispatch_exits (h : Dispatch s os t) (he : exitsAtOnce s = true) : t.phase = .exited := by
  simp only [exitsAtOnce, Bool.and_eq_true, Bool.not_eq_true', Bool.or_eq_true, Option.isNone_iff_eq_none] at he
  obtain ⟨hp, hn⟩ := he
  cases h with
  | parked h =>
    rw [hp] at h
    cases h
  | fatal _ hf =>
    cases hf with
    | snapshot hs hpub =>
      rcases hn with hn | hn
      · simp [State.source, hn] at hs
      · simp [hasActivePublication, hpub] at hn
    | exit _ => rfl

theorem Fits.notBootstrapping (hi : Fits s) (hq : s.publication.quietOrFatal = false) (id proposed : String) :
    s.phase ≠ .bootstrapping id proposed := by
  intro hp
  rw [hi.bootstrapping (by simp [hp, Phase.beforeSession])] at hq
  cases hq

/-- An operation is a bootstrap, an activation or an execution. -/
theorem operationKey_answer {key : Key} (ha : (∃ n, e.answers? = some (.deliverInputs n)) ∨
    (∃ p r, e.answers? = some (.uploadSnapshot p r)) ∨ e.answers? = some .cleanup)
    (h : s.operationKey? = some key) : e.answers? ≠ some key := by
  have hk : (∃ id, key = .bootstrap id) ∨ (∃ id record, key = .activate id record) ∨
      ∃ record, key = .executeTurn record := by
    unfold State.operationKey? at h
    split at h
    · split at h
      · cases h
        exact .inl ⟨_, rfl⟩
      · cases h
    · cases h
      exact .inr (.inl ⟨_, _, rfl⟩)
    · cases h
      exact .inr (.inr ⟨_, rfl⟩)
    · cases h
      exact .inl ⟨_, rfl⟩
    · cases h
      exact .inr (.inl ⟨_, _, rfl⟩)
    · cases h
      exact .inr (.inr ⟨_, rfl⟩)
    · cases h
  rcases ha with ⟨n, ha⟩ | ⟨p, r, ha⟩ | ha <;>
    rcases hk with ⟨_, rfl⟩ | ⟨_, _, rfl⟩ | ⟨_, rfl⟩ <;> simp [ha]

theorem turnDone_operation {record : String} (result : SelectedTurnExecutionResult)
    (hm : matchesTurn s record = true) (ht : t.phase = (turnDone s result).state.phase) :
    t.operationKey? = none := by
  unfold matchesTurn at hm
  unfold turnDone finishDrainingOperation at ht
  unfold State.operationKey?
  split at hm
  · rename_i hp
    simp [ht, hp, removeAppliedTargeted, completedPhase]
  · rename_i hp
    simp [ht, hp, removeAppliedTargeted, completedPhase]
  · cases hm

theorem turnDone_delivery (s : State) (result : SelectedTurnExecutionResult) :
    (turnDone s result).state.deliveryHeadSequence = s.deliveryHeadSequence := by
  unfold turnDone finishDrainingOperation
  split <;> rfl

/-- A completed snapshot that left the publication with none in flight. -/
theorem waits_uploaded (hx : s.phase ≠ .exited) (ho : ∀ key, t.operationKey? = some key → s.operationKey? = some key)
    (hd : t.deliveryHeadSequence = s.deliveryHeadSequence) (hs : t.publication.snapshot = none)
    (ha : ∃ point record, e.answers? = some (.uploadSnapshot point record)) : Waits s e os t := by
  obtain ⟨point, record, ha⟩ := ha
  refine waits_of_parts hx (fun key h => .inr ⟨ho key h, ?_⟩) (fun _ n h => .inr ⟨hd ▸ h, by simp [ha]⟩)
    (fun _ p h => by rw [hs] at h; cases h)
  exact operationKey_answer (.inr (.inl ⟨point, record, ha⟩)) (ho key h)

theorem completes_answers {point : SnapshotPoint} {record : Option String}
    (h : e.completesSnapshot point record = true) : e.answers? = some (.uploadSnapshot point record) := by
  unfold Event.completesSnapshot at h
  split at h
  · simp only [Bool.and_eq_true, beq_iff_eq] at h
    simp [Event.answers?, h]
  · simp only [Bool.and_eq_true, beq_iff_eq] at h
    simp [Event.answers?, h]
  · cases h

theorem stop_answers (h : e.isStop = true) : e.answers? = none := by
  unfold Event.isStop at h
  split at h
  · rfl
  · rfl
  · cases h

/-- What an event does waits for nothing answered, unless it abandons an operation. -/
theorem handled_waits (hi : Fits s) (hx : s.phase ≠ .exited) (hab : abandons s e = false) (h : Handled s e os t) :
    Waits s e os t := by
  cases h with
  | started hp => exact waits_quiet hx rfl (by simp [State.operationKey?]) rfl (fun _ h => h)
  | reconnected hp =>
    exact waits_quiet hx rfl
      (fun _ h => operationKey_publication h (.inr (hi.notBootstrapping (by simp [hp, Publication.quietOrFatal]))))
      rfl (by simp [State.awaiting, Publication.snapshot])
  | transportLost => exact waits_exited rfl
  | @stopped _ reason exit he hs =>
    refine waits_quiet hx (stop_answers he) (fun key h => ?_) rfl (fun _ h => h)
    -- a stopped bootstrap is still awaited because its failure would have been fatal
    have hb : ∀ id proposed, s.phase = .bootstrapping id proposed → s.publication = .none := by
      intro id proposed hp
      unfold Event.isStop at he
      split at he
      · simpa [abandons, hp, hasActivePublication] using hab
      · simpa [abandons, hp, hasActivePublication] using hab
      · cases he
    unfold State.operationKey? drainingOperation at h
    unfold State.operationKey?
    cases hp : s.phase with
    | bootstrapping id proposed => simpa [hp, hb id proposed hp] using h
    | active id record status => cases status <;> simp_all
    | _ => simp_all
  | tainted => exact waits_quiet hx rfl (fun _ h => h) rfl (fun _ h => h)
  | start hp =>
    have hn : s.publication = .none := hi.unpublished (by simp [hp, Phase.beforeStart])
    refine waits_of_parts hx (fun key h => .inl ?_) (fun _ n h => .inr ⟨h, by simp [Event.answers?]⟩)
      (fun _ p h => by simp [hn, Publication.snapshot] at h)
    simp only [State.operationKey?, hn, if_true, Option.some.injEq] at h
    simp [Output.key?, h]
  | batch _ _ =>
    unfold onInputBatch
    split <;> exact waits_quiet hx rfl (fun _ h => h) rfl (fun _ h => h)
  | acceptedEarly hp => exact waits_quiet hx rfl (by simp [State.operationKey?]) rfl (fun _ h => h)
  | accepted hp _ =>
    refine waits_of_parts hx (fun key h => .inl ?_) (fun _ n h => .inr ⟨h, by simp [Event.answers?]⟩)
      (fun _ p h => .inr ⟨h, by simp [Event.answers?]⟩)
    simp only [State.operationKey?, Option.some.injEq] at h
    simp [Output.key?, h]
  | acknowledged hp =>
    exact waits_quiet hx rfl
      (fun _ h => operationKey_publication h (.inr (hi.notBootstrapping (by simp [hp, Publication.quietOrFatal]))))
      rfl (by simp [Publication.snapshot])
  | bootstrapDrained hp =>
    exact waits_done hx (by simp [State.operationKey?, bootstrapped, hp]) rfl rfl (by simp [Event.answers?])
      (by simp [Event.answers?])
  | @bootstrapReadied startId completion _ _ p hp hpub =>
    refine waits_of_parts hx (fun key h => ?_) (fun _ n h => .inr ⟨h, by simp [Event.answers?]⟩) (fun _ q h => ?_)
    · simp [State.operationKey?, bootstrapped, hp] at h
    · rcases hpub with ⟨rfl, _⟩ | ⟨_, rfl, rfl⟩
      · exact .inr ⟨h, by simp [Event.answers?]⟩
      · cases h
        exact .inl (by simp [Output.key?])
  | bootstrapFailed hp hf =>
    cases hf with
    | snapshot _ _ =>
      refine waits_of_parts hx (fun key h => ?_) (fun _ n h => .inr ⟨h, by simp [Event.answers?]⟩)
        (fun _ p h => .inl ?_)
      · simp [State.operationKey?, hp] at h
      · cases h
        simp [fatalUpload, Output.key?]
    | exit _ => exact waits_exited rfl
  | activated hp => exact waits_done hx (by simp [State.operationKey?]) rfl rfl (by simp [Event.answers?]) (by simp [Event.answers?])
  | activationDrained hp =>
    exact waits_done hx (by simp [State.operationKey?]) rfl rfl (by simp [Event.answers?]) (by simp [Event.answers?])
  | operationDrained hp he =>
    refine waits_done hx (by simp [State.operationKey?]) rfl rfl ?_ ?_ <;>
      rcases he with ⟨_, _, _, _, _, rfl⟩ | ⟨_, _, _, _, rfl⟩ | ⟨_, _, _, rfl⟩ <;> simp [Event.answers?]
  | activationFailed hp hd =>
    exact waits_exited (dispatch_exits hd (by simpa [abandons, hp] using hab))
  | turnDefect hp hd =>
    exact waits_exited (dispatch_exits hd (by simpa [abandons, hp] using hab))
  | delivered hm =>
    unfold onInputsDelivered
    split
    · rename_i hne
      simp only [deliveryMatches, Bool.and_eq_true, beq_iff_eq] at hm
      simp [hm.1, hm.2] at hne
    · refine waits_of_parts hx (fun key h => .inr ⟨h, ?_⟩) (fun _ n h => by cases h)
        (fun _ p h => .inr ⟨h, by simp [Event.answers?]⟩)
      exact operationKey_answer (by simp [Event.answers?]) h
  | deliveryDrained hd hp =>
    refine waits_of_parts hx (fun key h => .inr ⟨h, ?_⟩) (fun _ n h => by cases h)
      (fun _ p h => .inr ⟨h, by simp [Event.answers?]⟩)
    exact operationKey_answer (by simp [Event.answers?]) h
  | deliveryFailed hd hp hdis =>
    cases hdis with
    | parked _ =>
      refine waits_of_parts hx (fun key h => .inr ⟨h, ?_⟩) (fun _ n h => by cases h)
        (fun _ p h => .inr ⟨h, by simp [Event.answers?]⟩)
      exact operationKey_answer (by simp [Event.answers?]) h
    | fatal _ hf =>
      cases hf with
      | snapshot _ hn =>
        refine waits_of_parts hx (fun key h => .inr ?_) (fun _ n h => by cases h) (fun _ p h => .inl ?_)
        · have hop := operationKey_publication (s := { s with deliveryHeadSequence := none }) h (.inl hn)
          exact ⟨hop, operationKey_answer (by simp [Event.answers?]) hop⟩
        · cases h
          simp [fatalUpload, Output.key?]
      | exit _ => exact waits_exited rfl
  | turnQuiet hm _ =>
    exact waits_done hx (turnDone_operation _ hm rfl) (turnDone_delivery _ _) (turnDone_publication _ _)
      (by simp [Event.answers?]) (by simp [Event.answers?])
  | @turnPublished record result pending hm hr _ =>
    refine waits_of_parts hx (fun key h => ?_) (fun _ n h => .inr ⟨turnDone_delivery s result ▸ h, by simp [Event.answers?]⟩)
      (by simp [State.awaiting, Publication.snapshot])
    rw [turnDone_operation (t := (turnDone s result).state.awaiting pending) result hm rfl] at h
    cases h
  | @turnSnapshot record result pending src hm hr _ hn =>
    refine waits_of_parts hx (fun key h => ?_) (fun _ n h => .inr ⟨turnDone_delivery s result ▸ h, by simp [Event.answers?]⟩)
      (fun _ p h => .inl ?_)
    · have hop := turnDone_operation result hm
        (show ({ (turnDone s result).state with
          publication := .terminalSnapshot result.result.point record pending } : State).phase = _ from rfl)
      cases hop.symm.trans h
    · cases h
      simp [Output.key?]
  | readyUploaded hp he =>
    exact waits_uploaded hx
      (fun _ h => operationKey_publication h (.inr (hi.notBootstrapping (by simp [hp, Publication.quietOrFatal]))))
      rfl rfl ⟨_, _, completes_answers he⟩
  | terminalUploaded hp =>
    exact waits_uploaded hx
      (fun _ h => operationKey_publication h (.inr (hi.notBootstrapping (by simp [hp, Publication.quietOrFatal]))))
      rfl rfl ⟨_, _, rfl⟩
  | terminalUploadFailed hp hid =>
    exact waits_uploaded hx
      (fun _ h => operationKey_publication h (.inr (hi.notBootstrapping (by simp [hp, Publication.quietOrFatal]))))
      rfl rfl ⟨_, _, rfl⟩
  | cleanupUploaded hp hph =>
    exact waits_uploaded hx (by simp [State.operationKey?]) rfl rfl ⟨_, _, rfl⟩
  | cleanupUploadFailed hp hph hf =>
    cases hf with
    | snapshot _ _ =>
      refine waits_of_parts hx (fun key h => ?_) (fun _ n h => .inr ⟨h, by simp [Event.answers?]⟩)
        (fun _ p h => .inl ?_)
      · simp [State.operationKey?, hph] at h
      · cases h
        simp [fatalUpload, Output.key?]
    | exit _ => exact waits_exited rfl
  | fatalUploaded _ _ => exact waits_exited rfl
  | fatalCleaning hp hph he =>
    exact waits_uploaded hx (by simp [State.operationKey?]) rfl rfl ⟨_, _, completes_answers he⟩
  | retried hp _ _ =>
    exact waits_quiet hx rfl
      (fun _ h => operationKey_publication h (.inr (hi.notBootstrapping (by simp [hp, Publication.quietOrFatal]))))
      rfl (by simp [State.awaiting, Publication.snapshot])
  | retryLapsed _ _ => exact waits_quiet hx rfl (fun _ h => h) rfl (fun _ h => h)
  | cleanedFatal _ _ => exact waits_exited rfl
  | cleaned hc hp => exact waits_exited rfl
  | cleanupFailed hc hf =>
    refine fatal_waits hx hf (fun key h => ?_) (by simp [Event.answers?])
    exact operationKey_answer (by simp [Event.answers?]) h
  | invariantFailed hd => exact dispatch_waits hx hd rfl

/-- Advancing waits for what it emits. -/
theorem advanced_waits (h : Advanced s os t) : ∀ key, key ∈ t.awaits → key ∈ keys os ∨ key ∈ s.awaits := by
  -- advancing is a step on an event that answers nothing
  have hgo : Waits s .runtimeStarted os t := by
    by_cases hx : s.phase = .exited
    · exact waits_exited ((advanced_exits hx h).2 ▸ hx)
    · induction h with
      | rest _ => exact waits_quiet hx rfl (fun _ h => h) rfl (fun _ h => h)
      | activate _ _ _ =>
        refine waits_of_parts hx (fun key h => .inl ?_) (fun _ n h => .inr ⟨h, by simp [Event.answers?]⟩)
          (fun _ p h => .inr ⟨h, by simp [Event.answers?]⟩)
        simp only [State.operationKey?, Option.some.injEq] at h
        simp [Output.key?, h]
      | ready hp _ _ ih =>
        intro key hk
        rcases ih (by simp) key hk with h | ⟨h, ha⟩
        · exact .inl h
        · refine .inr ⟨?_, ha⟩
          rw [mem_awaits] at h ⊢
          obtain ⟨_, h | h⟩ := h
          · simp [State.operationKey?] at h
          · exact ⟨hx, .inr h⟩
      | cleanupSnapshot _ hd _ =>
        refine waits_of_parts hx (by simp [State.operationKey?]) (by simp [hd]) (fun _ p h => .inl ?_)
        cases h
        simp [Output.key?]
      | cleanup _ hd hn =>
        exact waits_of_parts hx (by simp [State.operationKey?]) (by simp [hd]) (by simp [hn, Publication.snapshot])
      | @ignore s os t inputs start hh hd ha ih =>
        intro key hk
        rcases ih hx key hk with h | h
        · exact .inl (by simp [h])
        · exact .inr h
      | @deliver s inputs start active hh _ =>
        refine waits_of_parts hx (fun key h => .inr ⟨h, by simp [Event.answers?]⟩) (fun _ n h => .inl ?_)
          (fun _ p h => .inr ⟨h, by simp [Event.answers?]⟩)
        cases h
        simp [Output.key?]
      | execute _ _ _ _ =>
        refine waits_of_parts hx (fun key h => .inl ?_) (fun _ n h => .inr ⟨h, by simp [Event.answers?]⟩)
          (fun _ p h => .inr ⟨h, by simp [Event.answers?]⟩)
        simp only [State.operationKey?, Option.some.injEq] at h
        simp [Output.key?, h]
  intro key hk
  rcases hgo key hk with h | ⟨h, _⟩
  · exact .inl h
  · exact .inr h

theorem bootstrap_awaited {id : String} (h : .bootstrap id ∈ s.awaits) : matchesBootstrap s id = true := by
  obtain ⟨_, h | h | h⟩ := mem_awaits.1 h
  · unfold State.operationKey? at h
    unfold matchesBootstrap
    split at h <;> simp_all
  · simp [State.deliveryKey?] at h
  · simp [State.snapshotKey?] at h

theorem activation_awaited {id record : String} (h : .activate id record ∈ s.awaits) :
    matchesActivation s id record = true := by
  obtain ⟨_, h | h | h⟩ := mem_awaits.1 h
  · unfold State.operationKey? at h
    unfold matchesActivation
    split at h <;> simp_all
  · simp [State.deliveryKey?] at h
  · simp [State.snapshotKey?] at h

theorem turn_awaited {record : String} (h : .executeTurn record ∈ s.awaits) : matchesTurn s record = true := by
  obtain ⟨_, h | h | h⟩ := mem_awaits.1 h
  · unfold State.operationKey? at h
    unfold matchesTurn
    split at h <;> simp_all
  · simp [State.deliveryKey?] at h
  · simp [State.snapshotKey?] at h

theorem delivery_awaited {n : Nat} (h : .deliverInputs n ∈ s.awaits) : s.deliveryHeadSequence = some n := by
  obtain ⟨_, h | h | h⟩ := mem_awaits.1 h
  · exact absurd h (operationKey_answer (e := .inputsDelivered n [] none) (.inl ⟨n, rfl⟩) · rfl)
  · simpa [State.deliveryKey?] using h
  · simp [State.snapshotKey?] at h

theorem snapshot_awaited {point : SnapshotPoint} {record : Option String}
    (h : .uploadSnapshot point record ∈ s.awaits) : snapshotMatches s point record = true := by
  obtain ⟨_, h | h | h⟩ := mem_awaits.1 h
  · exact absurd h (operationKey_answer (e := .snapshotSucceeded point record) (.inr (.inl ⟨point, record, rfl⟩)) · rfl)
  · simp [State.deliveryKey?] at h
  · obtain ⟨p, hp, h⟩ := Option.map_eq_some_iff.1 h
    cases h
    simp [snapshotMatches, hp]

theorem cleanup_unawaited : Key.cleanup ∉ s.awaits := by
  intro h
  obtain ⟨_, h | h | h⟩ := mem_awaits.1 h
  · exact absurd h (operationKey_answer (e := .cleanupSucceeded) (.inr (.inr rfl)) · rfl)
  · simp [State.deliveryKey?] at h
  · simp [State.snapshotKey?] at h

/-- An ignored completion answers nothing the state waits for, unless it abandons it. -/
theorem ignored_waits (hi : Ignored s e) (hab : abandons s e = false) : ∀ key ∈ s.awaits, e.answers? ≠ some key := by
  intro key hk ha
  cases e with
  | bootstrapSucceeded id completion =>
    cases ha
    simp [Ignored, bootstrap_awaited hk] at hi
  | bootstrapFailed id error payload =>
    cases ha
    simp [Ignored, bootstrap_awaited hk] at hi
  | activationSucceeded id record diagnostics =>
    cases ha
    simp [Ignored, activation_awaited hk] at hi
  | activationFailed id record error =>
    cases ha
    simp [Ignored, activation_awaited hk] at hi
  | inputsDelivered n delivered info =>
    cases ha
    -- the delivery is reported while other inputs are at the head of the queue
    have hd := delivery_awaited hk
    simp only [Ignored, deliveryMatches, hd, beq_self_eq_true, Bool.true_and] at hi
    have hx : (s.phase != .exited) = true := by simpa using (mem_awaits.1 hk).1
    simp only [abandons, hx, hd, beq_self_eq_true, Bool.true_and, bne_eq_false_iff_eq] at hab
    simp [hab] at hi
  | inputDeliveryFailed n error =>
    cases ha
    exact hi (delivery_awaited hk)
  | turnCompleted record result =>
    cases ha
    simp [Ignored, turn_awaited hk] at hi
  | turnDefect record error =>
    cases ha
    simp [Ignored, turn_awaited hk] at hi
  | snapshotSucceeded point record =>
    cases ha
    simp [Ignored, snapshot_awaited hk] at hi
  | snapshotFailed point record error =>
    cases ha
    simp [Ignored, snapshot_awaited hk] at hi
  | cleanupSucceeded =>
    cases ha
    exact cleanup_unawaited hk
  | cleanupFailed error =>
    cases ha
    exact cleanup_unawaited hk
  | _ => cases ha

/-- A completion that makes the reducer throw answers nothing awaited either. -/
theorem thrown_waits (hf : Fits s) (ht : Throws s e) (hab : abandons s e = false) :
    ∀ key ∈ s.awaits, e.answers? ≠ some key := by
  have hsnap : ∀ {point record}, snapshotMatches s point record = true →
      (s.publication = .cleanupSnapshot ∨ ∃ fatal, s.publication = .fatalSnapshot fatal .cleanup) →
      (∀ reason exit, s.phase ≠ .cleaning reason exit .publication) → False := by
    intro point record _ hp hno
    have hc : s.phase.cleaningPublication = true := by
      apply hf.cleaning
      rcases hp with hp | ⟨fatal, hp⟩ <;> simp [hp, Publication.ofCleanup]
    unfold Phase.cleaningPublication at hc
    split at hc
    · exact hno _ _ ‹_›
    · cases hc
  intro key hk ha
  cases e with
  | bootstrapSucceeded id completion =>
    cases ha
    obtain ⟨⟨proposed, hp⟩, _, hn⟩ := ht
    obtain ⟨_, h | h | h⟩ := mem_awaits.1 hk
    · simp [State.operationKey?, hp, hn] at h
    · simp [State.deliveryKey?] at h
    · simp [State.snapshotKey?] at h
  | turnCompleted record result =>
    obtain ⟨hm, hr, hs, hn⟩ := ht
    have hl : s.session.any (·.kind == .llm) = true := by
      cases hses : s.session <;> simp_all
    cases hres : result.result with
    | parked reason => exact hr reason hres
    | outcome => simp [abandons, hm, hl, hasActivePublication, hn, hres] at hab
    | failed => simp [abandons, hm, hl, hasActivePublication, hn, hres] at hab
  | snapshotSucceeded point record => exact hsnap ht.1 ht.2.1 ht.2.2
  | snapshotFailed point record error => exact hsnap ht.1 ht.2.1 ht.2.2
  | _ => cases ht

/-- The whole step. -/
theorem coreStep_waits (hi : Fits s) (hab : abandons s e = false) (h : CoreStep s e os t) : Waits s e os t := by
  cases h with
  | exited hx => exact waits_exited hx
  | thrown _ ht => exact fun key hk => .inr ⟨hk, thrown_waits hi ht hab key hk⟩
  | ignored _ hg ha =>
    intro key hk
    rcases advanced_waits ha key hk with h | h
    · exact .inl h
    · exact .inr ⟨h, ignored_waits hg hab key h⟩
  | handled hx hh ha =>
    intro key hk
    rcases advanced_waits ha key hk with h | h
    · exact .inl (by simp [h])
    · rcases handled_waits hi hx hab hh key h with h | h
      · exact .inl (by simp [h])
      · exact .inr h

end

end Leitwerk.Worker
