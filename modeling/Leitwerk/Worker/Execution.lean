import Leitwerk.Worker.Refines
/-!
# At most one execution, and none before acceptance

`execution_follows_acceptance`: in every run, whatever arrives in whatever
order, a turn is executed only after the server accepted it for the one start
the worker took, at most one turn is executed, every terminal fact is about an
executed turn, and a run never reports both an outcome and a failure.

The guards of the reducer work together through the phase: a phase before the
execution has executed nothing, a phase that executes turn `r` has executed
exactly `r`, and every later phase executes nothing more (`ExecInv`).
-/

namespace Leitwerk.Worker

open Runs

/-! ## What a run has started, executed and reported -/

/-- The start a bootstrap command is for. -/
def Output.start? : Output → Option String
  | .command (.bootstrap startRecordId _) => some startRecordId
  | _ => none

/-- The turn record an execution is for. -/
def Output.execute? : Output → Option String
  | .command (.executeTurn turnRecordId _ _) => some turnRecordId
  | _ => none

/-- The terminal fact an output reports. -/
def Output.terminal? : Output → Option TerminalFact
  | .fact (Fact.terminal reported) => some reported
  | _ => none

/-- The bootstrapped starts, in order. -/
def starts (os : List Output) : List String := os.filterMap (·.start?)

/-- The executed turn records, in order. -/
def executes (os : List Output) : List String := os.filterMap (·.execute?)

/-- The reported terminal facts, in order. -/
def terminals (os : List Output) : List TerminalFact := os.filterMap (·.terminal?)

@[simp] theorem starts_nil : starts [] = [] := rfl
@[simp] theorem executes_nil : executes [] = [] := rfl
@[simp] theorem terminals_nil : terminals [] = [] := rfl
@[simp] theorem starts_append (a b : List Output) : starts (a ++ b) = starts a ++ starts b := by simp [starts]
@[simp] theorem executes_append (a b : List Output) : executes (a ++ b) = executes a ++ executes b := by
  simp [executes]
@[simp] theorem terminals_append (a b : List Output) : terminals (a ++ b) = terminals a ++ terminals b := by
  simp [terminals]

@[simp] theorem starts_cons (o : Output) (os : List Output) : starts (o :: os) = o.start?.toList ++ starts os := by
  cases h : o.start? <;> simp [starts, h]
@[simp] theorem executes_cons (o : Output) (os : List Output) :
    executes (o :: os) = o.execute?.toList ++ executes os := by
  cases h : o.execute? <;> simp [executes, h]

theorem mem_executes {os : List Output} {record : String} :
    record ∈ executes os ↔ ∃ inputs session, Output.command (.executeTurn record inputs session) ∈ os := by
  simp only [executes, List.mem_filterMap]
  constructor
  · rintro ⟨o, ho, h⟩
    unfold Output.execute? at h
    split at h
    · cases h
      exact ⟨_, _, ho⟩
    · cases h
  · rintro ⟨inputs, session, h⟩
    exact ⟨_, h, rfl⟩

theorem mem_terminals {os : List Output} {fact : TerminalFact} :
    fact ∈ terminals os ↔ Output.fact (.terminal fact) ∈ os := by
  simp only [terminals, List.mem_filterMap]
  constructor
  · rintro ⟨o, ho, h⟩
    unfold Output.terminal? at h
    split at h
    · cases h
      exact ho
    · cases h
  · intro h
    exact ⟨_, h, rfl⟩

/-- Whether a terminal fact is an outcome. -/
def TerminalFact.isOutcome : TerminalFact → Bool
  | .outcome _ => true
  | .failed _ => false

/-- Nothing started, executed or reported. -/
def Silent (os : List Output) : Prop := starts os = [] ∧ executes os = [] ∧ terminals os = []

theorem silent_nil : Silent [] := ⟨rfl, rfl, rfl⟩

theorem silent_of_consumed {os : List Output}
    (h : ∀ o ∈ os, ∃ id sequence mode info, o = inputConsumedFact id sequence mode info) : Silent os := by
  refine ⟨?_, ?_, ?_⟩ <;>
  · refine List.filterMap_eq_nil_iff.2 fun o ho => ?_
    obtain ⟨_, _, _, _, rfl⟩ := h o ho
    rfl

theorem removeApplied_outputs (queue : List InputItem) (last : Nat) (applied : List AppliedTargetedInput) :
    ∀ o ∈ (removeApplied queue last applied).2.2,
      ∃ id sequence mode info, o = inputConsumedFact id sequence mode info := by
  fun_induction removeApplied queue last applied with
  | case1 => simp
  | case2 => simp
  | case3 last item applied head rest hm queue' last' outputs heq ih =>
    rw [heq] at ih
    intro o ho
    rcases List.mem_cons.1 ho with rfl | ho
    · exact ⟨_, _, _, _, rfl⟩
    · exact ih o ho
  | case4 => simp

theorem silent_turnDone (s : State) (result : SelectedTurnExecutionResult) : Silent (turnDone s result).outputs :=
  silent_of_consumed (removeApplied_outputs _ _ _)

theorem delivered_outputs (s : State) (headSequence : Nat) (delivered : List DeliveredInput) (info : Option Json) :
    ∀ o ∈ (onInputsDelivered s headSequence delivered info).outputs,
      ∃ id sequence mode info, o = inputConsumedFact id sequence mode info := by
  unfold onInputsDelivered
  split
  · simp
  · intro o ho
    obtain ⟨d, _, rfl⟩ := List.mem_map.1 ho
    exact ⟨_, _, _, _, rfl⟩

theorem silent_delivered (s : State) (headSequence : Nat) (delivered : List DeliveredInput) (info : Option Json) :
    Silent (onInputsDelivered s headSequence delivered info).outputs :=
  silent_of_consumed (delivered_outputs s headSequence delivered info)

theorem ignored_outputs (s : State) (inputs : List InputItem) :
    ∀ o ∈ (consumeIgnored s inputs).outputs, ∃ id sequence mode info, o = inputConsumedFact id sequence mode info := by
  intro o ho
  obtain ⟨item, _, rfl⟩ := List.mem_map.1 ho
  exact ⟨_, _, _, _, rfl⟩

theorem silent_ignored (s : State) (inputs : List InputItem) : Silent (consumeIgnored s inputs).outputs :=
  silent_of_consumed (ignored_outputs s inputs)

/-! ## Where a phase stands -/

/-- The start a phase before or during the execution belongs to. -/
def Phase.start? : Phase → Option String
  | .bootstrapping id _ | .readying id _ _ | .waitingForAcceptance id _ | .activating id _ => some id
  | .active id _ .pending | .active id _ .executing => some id
  | _ => none

/-- The accepted turn record a phase before or during the execution carries. -/
def Phase.accepted? : Phase → Option (String × String)
  | .readying id _ (some record) | .activating id record => some (id, record)
  | .active id record .pending | .active id record .executing => some (id, record)
  | _ => none

/-- The turn record a phase executes. -/
def Phase.executing? : Phase → Option String
  | .active _ record .executing | .draining _ _ (some (.turn record)) => some record
  | _ => none

/-- A phase before the execution. -/
def Phase.beforeExecution : Phase → Bool
  | .init | .waitingForStart | .bootstrapping _ _ | .readying _ _ _ | .waitingForAcceptance _ _ => true
  | .activating _ _ | .active _ _ .pending => true
  | _ => false

/-- A phase before the start. -/
def Phase.beforeStart : Phase → Bool
  | .init | .waitingForStart => true
  | _ => false

/-- A phase that executes nothing and never will. -/
def Phase.over (p : Phase) : Bool :=
  p.start?.isNone && p.executing?.isNone && !p.beforeExecution

/-- The terminal fact a publication holds. -/
def Publication.terminal? : Publication → Option PendingTerminal
  | .terminalSnapshot _ _ terminal | .terminalPendingAck terminal => some terminal
  | _ => .none

theorem Phase.over_spec {p : Phase} (h : p.over = true) :
    p.start? = none ∧ p.executing? = none ∧ p.accepted? = none ∧ p.beforeExecution = false ∧
      p.beforeStart = false := by
  simp only [Phase.over, Bool.and_eq_true, Option.isNone_iff_eq_none, Bool.not_eq_true'] at h
  obtain ⟨⟨hs, he⟩, hb⟩ := h
  refine ⟨hs, he, ?_, hb, ?_⟩
  · cases p with
    | active id record status => cases status <;> simp_all [Phase.start?, Phase.accepted?]
    | _ => simp_all [Phase.start?, Phase.accepted?]
  · cases p <;> simp_all [Phase.beforeExecution, Phase.beforeStart]

theorem matchesTurn_iff {s : State} {record : String} :
    matchesTurn s record = true ↔ s.phase.executing? = some record := by
  unfold matchesTurn Phase.executing?
  split <;> simp_all

/-! ## The invariant -/

/-- `acc id r`: the server accepted record `r` for start `id`; `done r r'`: a
completion of turn `r` carried record `r'`; `out`: everything emitted. -/
structure ExecInv (acc done : String → String → Prop) (out : List Output) (s : State) : Prop where
  unstarted : s.phase.beforeStart = true → starts out = []
  started : ∀ id, s.phase.start? = some id → starts out = [id]
  oneStart : (starts out).length ≤ 1
  accepted : ∀ id record, s.phase.accepted? = some (id, record) → acc id record
  unexecuted : s.phase.beforeExecution = true → executes out = []
  executing : ∀ record, s.phase.executing? = some record → executes out = [record]
  oneExecution : (executes out).length ≤ 1
  executedAccepted : ∀ record ∈ executes out, ∃ id, starts out = [id] ∧ acc id record
  unreported : s.phase.over = false → terminals out = [] ∧ s.publication.terminal? = none
  snapshot : ∀ point record terminal, s.publication = .terminalSnapshot point record terminal →
    terminals out = [] ∧ terminal.fact.turnRecordId = terminal.correlation.turnRecordId ∧
      ∃ r ∈ executes out, done r terminal.fact.turnRecordId
  awaiting : ∀ terminal, s.publication = .terminalPendingAck terminal →
    terminal.fact ∈ terminals out ∧ terminal.fact.turnRecordId = terminal.correlation.turnRecordId ∧
      ∀ fact ∈ terminals out, fact = terminal.fact
  oneKind : ∀ f ∈ terminals out, ∀ g ∈ terminals out, f.isOutcome = g.isOutcome
  settled : ∀ f ∈ terminals out, ∃ r ∈ executes out, done r f.turnRecordId

section
variable {acc done : String → String → Prop} {out os : List Output} {s t : State}

theorem ExecInv.mono {acc' done' : String → String → Prop} (hi : ExecInv acc done out s)
    (ha : ∀ id r, acc id r → acc' id r) (hd : ∀ r id, done r id → done' r id) : ExecInv acc' done' out s where
  unstarted := hi.unstarted
  started := hi.started
  oneStart := hi.oneStart
  accepted id record h := ha _ _ (hi.accepted id record h)
  unexecuted := hi.unexecuted
  executing := hi.executing
  oneExecution := hi.oneExecution
  executedAccepted record h := by
    obtain ⟨id, hs, h⟩ := hi.executedAccepted record h
    exact ⟨id, hs, ha _ _ h⟩
  unreported := hi.unreported
  snapshot point record terminal h := by
    obtain ⟨hn, hc, r, hr, h⟩ := hi.snapshot point record terminal h
    exact ⟨hn, hc, r, hr, hd _ _ h⟩
  awaiting := hi.awaiting
  oneKind := hi.oneKind
  settled f h := by
    obtain ⟨r, hr, h⟩ := hi.settled f h
    exact ⟨r, hr, hd _ _ h⟩

/-- A step that starts, executes and reports nothing, and moves to no other
phase than a last one, keeps the invariant. -/
theorem ExecInv.keep (hi : ExecInv acc done out s) (hq : Silent os)
    (hp : t.phase = s.phase ∨ t.phase.over = true)
    (hpub : t.publication = s.publication ∨ t.publication.terminal? = none) :
    ExecInv acc done (out ++ os) t := by
  obtain ⟨h1, h2, h3⟩ := hq
  have hs : starts (out ++ os) = starts out := by simp [h1]
  have he : executes (out ++ os) = executes out := by simp [h2]
  have ht : terminals (out ++ os) = terminals out := by simp [h3]
  have hphase : (∀ id, t.phase.start? = some id → s.phase.start? = some id) ∧
      (∀ r, t.phase.executing? = some r → s.phase.executing? = some r) ∧
      (∀ x, t.phase.accepted? = some x → s.phase.accepted? = some x) ∧
      (t.phase.beforeExecution = true → s.phase.beforeExecution = true) ∧
      (t.phase.beforeStart = true → s.phase.beforeStart = true) ∧
      (t.phase.over = false → s.phase.over = false) := by
    rcases hp with hp | hp
    · rw [hp]
      exact ⟨fun _ h => h, fun _ h => h, fun _ h => h, id, id, id⟩
    · obtain ⟨a, b, c, d, e⟩ := Phase.over_spec hp
      simp [a, b, c, d, e, hp]
  obtain ⟨pstart, pexec, pacc, pbefore, punstarted, pover⟩ := hphase
  constructor
  · rw [hs]; exact fun h => hi.unstarted (punstarted h)
  · rw [hs]; exact fun id h => hi.started id (pstart id h)
  · rw [hs]; exact hi.oneStart
  · exact fun id record h => hi.accepted id record (pacc _ h)
  · rw [he]; exact fun h => hi.unexecuted (pbefore h)
  · rw [he]; exact fun record h => hi.executing record (pexec record h)
  · rw [he]; exact hi.oneExecution
  · rw [he, hs]; exact hi.executedAccepted
  · rw [ht]
    intro h
    obtain ⟨hr, hn⟩ := hi.unreported (pover h)
    rcases hpub with hpub | hpub
    · exact ⟨hr, hpub ▸ hn⟩
    · exact ⟨hr, hpub⟩
  · rw [ht, he]
    intro point record terminal h
    rcases hpub with hpub | hpub
    · exact hi.snapshot point record terminal (hpub ▸ h)
    · rw [h] at hpub
      cases hpub
  · rw [ht]
    intro terminal h
    rcases hpub with hpub | hpub
    · exact hi.awaiting terminal (hpub ▸ h)
    · rw [h] at hpub
      cases hpub
  · rw [ht]; exact hi.oneKind
  · rw [ht, he]; exact hi.settled

theorem fatal_keeps {source : Option SnapshotSource} (hi : ExecInv acc done out s) (h : Fatal s source os t) :
    ExecInv acc done (out ++ os) t := by
  cases h with
  | snapshot _ _ => exact hi.keep ⟨rfl, rfl, rfl⟩ (.inl rfl) (.inr rfl)
  | exit _ => exact hi.keep ⟨rfl, rfl, rfl⟩ (.inr rfl) (.inr rfl)

theorem dispatch_keeps (hi : ExecInv acc done out s) (h : Dispatch s os t) : ExecInv acc done (out ++ os) t := by
  cases h with
  | parked _ => exact hi.keep silent_nil (.inl rfl) (.inl rfl)
  | fatal _ hf => exact fatal_keeps hi hf

/-- The acceptance an event carries, for a start. -/
def Accepts (e : Event) (startRecordId turnRecordId : String) : Prop :=
  e = .serverMessage (.turnStartAccepted startRecordId turnRecordId) ∨
    ∃ completion, e = .bootstrapSucceeded startRecordId completion ∧
      completion.session.acceptedTurnRecordId = some turnRecordId

/-- The turn record a result is about. -/
def TurnResult.record? : TurnResult → Option String
  | .outcome _ _ _ info => some info.turnRecordId
  | .failed failure => some failure.correlation.turnRecordId
  | .parked _ => none

/-- A completion of turn `r` whose result is about record `id`. -/
def Completes (e : Event) (r id : String) : Prop :=
  ∃ result, e = .turnCompleted r result ∧ result.result.record? = some id

theorem reports_record {result : TurnResult} {pending : PendingTerminal} (h : Reports s result pending) :
    result.record? = some pending.fact.turnRecordId ∧
      pending.fact.turnRecordId = pending.correlation.turnRecordId := by
  cases result with
  | outcome turnId outcome params info =>
    cases h
    exact ⟨rfl, rfl⟩
  | failed failure =>
    cases h
    exact ⟨rfl, rfl⟩
  | parked reason => cases h

theorem turnDone_phase (s : State) (result : SelectedTurnExecutionResult) {record : String}
    (hm : matchesTurn s record = true) : (turnDone s result).state.phase.over = true := by
  unfold matchesTurn at hm
  unfold turnDone finishDrainingOperation
  split at hm
  · rename_i hp
    simp [hp, removeAppliedTargeted, completedPhase]
    rfl
  · rename_i hp
    simp [hp, removeAppliedTargeted, completedPhase]
    rfl
  · cases hm

theorem turnDone_publication (s : State) (result : SelectedTurnExecutionResult) :
    (turnDone s result).state.publication = s.publication := by
  unfold turnDone finishDrainingOperation
  split <;> rfl

/-- Reporting a terminal fact of the executed turn, in a last phase. -/
theorem ExecInv.report (fact : TerminalFact) (hi : ExecInv acc done out s) (hover : t.phase.over = true)
    (hpub : t.publication = .none ∨ ∃ terminal, t.publication = .terminalPendingAck terminal ∧
      terminal.fact = fact ∧ fact.turnRecordId = terminal.correlation.turnRecordId)
    (hs : starts os = []) (he : executes os = []) (ht : terminals os = [fact])
    (hall : ∀ f ∈ terminals out, f = fact) (hset : ∃ r ∈ executes out, done r fact.turnRecordId) :
    ExecInv acc done (out ++ os) t := by
  obtain ⟨a, b, c, d, e⟩ := Phase.over_spec hover
  have hall' : ∀ f ∈ terminals (out ++ os), f = fact := by
    intro f hf
    rw [terminals_append, ht] at hf
    rcases List.mem_append.1 hf with hf | hf
    · exact hall f hf
    · simpa using hf
  have hs' : starts (out ++ os) = starts out := by simp [hs]
  have he' : executes (out ++ os) = executes out := by simp [he]
  constructor
  · simp [e]
  · simp [a]
  · rw [hs']; exact hi.oneStart
  · simp [c]
  · simp [d]
  · simp [b]
  · rw [he']; exact hi.oneExecution
  · rw [he', hs']; exact hi.executedAccepted
  · simp [hover]
  · intro point record terminal h
    rcases hpub with hpub | ⟨_, hpub, _, _⟩ <;> rw [h] at hpub <;> cases hpub
  · intro terminal h
    rcases hpub with hpub | ⟨terminal', hpub, rfl, hid⟩
    · rw [h] at hpub
      cases hpub
    · rw [h] at hpub
      cases hpub
      exact ⟨by simp [ht], hid, hall'⟩
  · intro f hf g hg
    rw [hall' f hf, hall' g hg]
  · intro f hf
    rw [hall' f hf, he']
    exact hset

/-- A publication with a terminal fact is only there in a last phase. -/
theorem ExecInv.over_of_terminal (hi : ExecInv acc done out s) (h : s.publication.terminal? ≠ none) :
    s.phase.over = true := by
  cases ho : s.phase.over with
  | true => rfl
  | false =>
    exact absurd (hi.unreported ho).2 h

/-- Sending the awaited fact again. -/
theorem ExecInv.resend {terminal : PendingTerminal} (hi : ExecInv acc done out s)
    (hp : s.publication = .terminalPendingAck terminal) :
    ExecInv acc done (out ++ [terminal.output]) (s.awaiting terminal) := by
  obtain ⟨hmem, hid, hall⟩ := hi.awaiting terminal hp
  refine hi.report terminal.fact (hi.over_of_terminal ?_)
    (.inr ⟨terminal, rfl, rfl, hid⟩) rfl rfl rfl hall (hi.settled _ hmem)
  simp [hp, Publication.terminal?]

/-- A phase that executes has reported nothing, and its last word is the completion of its turn. -/
theorem ExecInv.completing (hi : ExecInv acc done out s) {record : String} (hm : matchesTurn s record = true) :
    executes out = [record] ∧ terminals out = [] := by
  have hx := matchesTurn_iff.1 hm
  refine ⟨hi.executing record hx, (hi.unreported ?_).1⟩
  simp [Phase.over, hx]

/-- A move before the last phases, with nothing executed or reported. -/
theorem ExecInv.move (hi : ExecInv acc done out s) (hover : s.phase.over = false)
    (hpub : t.publication.terminal? = none) (he : executes os = []) (ht : terminals os = [])
    (hun : t.phase.beforeStart = true → starts (out ++ os) = [])
    (hstart : ∀ id, t.phase.start? = some id → starts (out ++ os) = [id])
    (hnew : starts os = [] ∨ s.phase.beforeStart = true ∧ (starts os).length ≤ 1)
    (hacc : ∀ id r, t.phase.accepted? = some (id, r) → acc id r)
    (hbefore : t.phase.beforeExecution = true → s.phase.beforeExecution = true)
    (hexec : ∀ r, t.phase.executing? = some r → s.phase.executing? = some r) :
    ExecInv acc done (out ++ os) t := by
  obtain ⟨hterm, _⟩ := hi.unreported hover
  have he' : executes (out ++ os) = executes out := by simp [he]
  have ht' : terminals (out ++ os) = [] := by simp [ht, hterm]
  have hbs : s.phase.beforeStart = true → s.phase.beforeExecution = true := by
    cases s.phase <;> simp [Phase.beforeStart, Phase.beforeExecution]
  constructor
  · exact hun
  · exact hstart
  · rcases hnew with hn | ⟨hb, hn⟩
    · simpa [hn] using hi.oneStart
    · simpa [hi.unstarted hb] using hn
  · exact hacc
  · rw [he']; exact fun h => hi.unexecuted (hbefore h)
  · rw [he']; exact fun record h => hi.executing record (hexec record h)
  · rw [he']; exact hi.oneExecution
  · rw [he']
    intro record hr
    rcases hnew with hn | ⟨hb, _⟩
    · simpa [hn] using hi.executedAccepted record hr
    · rw [hi.unexecuted (hbs hb)] at hr
      cases hr
  · exact fun _ => ⟨ht', hpub⟩
  · intro point record terminal h
    rw [h] at hpub
    cases hpub
  · intro terminal h
    rw [h] at hpub
    cases hpub
  · simp [ht']
  · simp [ht']

/-- A stop request drains what the phase executes. -/
theorem drainingOperation_executing (s : State) (hs : s.phase.stopping = false) (reason : String) (exit : Bool) :
    (Phase.draining reason exit (drainingOperation s)).executing? = s.phase.executing? := by
  unfold drainingOperation
  cases hp : s.phase with
  | active id record status => cases status <;> rfl
  | draining r x operation => simp [hp, Phase.stopping] at hs
  | cleaning r x stage => simp [hp, Phase.stopping] at hs
  | _ => rfl

theorem stop_exec {reason : String} {exit : Bool} (hi : ExecInv acc done out s) (hs : s.phase.stopping = false)
    (hphase : t.phase = .draining reason exit (drainingOperation s)) (hpub : t.publication = s.publication) :
    ExecInv acc done (out ++ []) t := by
  have hx : t.phase.executing? = s.phase.executing? := by
    rw [hphase]
    exact drainingOperation_executing s hs reason exit
  cases hxs : s.phase.executing? with
  | none =>
    refine hi.keep silent_nil (.inr ?_) (.inl hpub)
    rw [hxs, hphase] at hx
    rw [hphase]
    simp [Phase.over, Phase.start?, Phase.beforeExecution, hx]
  | some record =>
    have hover : s.phase.over = false := by simp [Phase.over, hxs]
    refine hi.move hover (hpub ▸ (hi.unreported hover).2) rfl rfl ?_ ?_ (.inl rfl) ?_ ?_ ?_
    · simp [hphase, Phase.beforeStart]
    · simp [hphase, Phase.start?]
    · simp [hphase, Phase.accepted?]
    · simp [hphase, Phase.beforeExecution]
    · rw [hx]; exact fun _ h => h

/-- What an event does keeps the invariant. -/
theorem handled_exec {e : Event} (hi : ExecInv acc done out s)
    (hacc : ∀ id r, id ∈ starts out → Accepts e id r → acc id r)
    (hdone : ∀ r id, Completes e r id → done r id) (h : Handled s e os t) :
    ExecInv acc done (out ++ os) t := by
  cases h with
  | started hp =>
    have hover : s.phase.over = false := by simp [hp, Phase.over, Phase.beforeExecution]
    have hs : starts out = [] := hi.unstarted (by simp [hp, Phase.beforeStart])
    refine hi.move hover (hi.unreported hover).2 rfl rfl ?_ ?_ (.inl rfl) ?_ ?_ ?_ <;>
      simp [hp, hs, Phase.start?, Phase.accepted?, Phase.beforeExecution, Phase.executing?]
  | reconnected hp => exact hi.resend hp
  | transportLost => exact hi.keep silent_nil (.inr rfl) (.inr rfl)
  | stopped he hs => exact stop_exec hi hs rfl rfl
  | tainted => exact hi.keep silent_nil (.inl rfl) (.inl rfl)
  | start hp =>
    have hover : s.phase.over = false := by simp [hp, Phase.over, Phase.beforeExecution]
    have hs : starts out = [] := hi.unstarted (by simp [hp, Phase.beforeStart])
    refine hi.move hover (hi.unreported hover).2 rfl rfl ?_ ?_
      (.inr ⟨by simp [hp, Phase.beforeStart], by simp [Output.start?]⟩) ?_ ?_ ?_ <;>
      simp [hp, hs, Output.start?, Phase.beforeStart, Phase.start?, Phase.accepted?,
        Phase.beforeExecution, Phase.executing?]
  | batch _ _ =>
    refine hi.keep silent_nil (.inl ?_) (.inl ?_) <;>
    · unfold onInputBatch
      split <;> rfl
  | @acceptedEarly startId proposed accepted record hp =>
    have hover : s.phase.over = false := by simp [hp, Phase.over, Phase.beforeExecution]
    have hs : starts out = [startId] := hi.started _ (by simp [hp, Phase.start?])
    refine hi.move hover (hi.unreported hover).2 rfl rfl ?_ ?_ (.inl rfl) ?_ ?_ ?_
    · simp [Phase.beforeStart]
    · simp [hs, Phase.start?]
    · simp only [Phase.accepted?, Option.some.injEq, Prod.mk.injEq]
      rintro id r ⟨rfl, rfl⟩
      exact hacc _ _ (by simp [hs]) (.inl rfl)
    · simp [hp, Phase.beforeExecution]
    · simp [Phase.executing?]
  | @accepted startId proposed record session hp hs' =>
    have hover : s.phase.over = false := by simp [hp, Phase.over, Phase.beforeExecution]
    have hs : starts out = [startId] := hi.started _ (by simp [hp, Phase.start?])
    refine hi.move hover (hi.unreported hover).2 rfl rfl ?_ ?_ (.inl rfl) ?_ ?_ ?_
    · simp [Phase.beforeStart]
    · simp [hs, Phase.start?, Output.start?]
    · simp only [Phase.accepted?, Option.some.injEq, Prod.mk.injEq]
      rintro id r ⟨rfl, rfl⟩
      exact hacc _ _ (by simp [hs]) (.inl rfl)
    · simp [hp, Phase.beforeExecution]
    · simp [Phase.executing?]
  | acknowledged _ => exact hi.keep silent_nil (.inl rfl) (.inr rfl)
  | bootstrapDrained hp =>
    refine hi.keep silent_nil (.inr ?_) (.inl rfl)
    simp [bootstrapped, hp]
    rfl
  | @bootstrapReadied startId completion proposed os p hp hpub =>
    have hover : s.phase.over = false := by simp [hp, Phase.over, Phase.beforeExecution]
    have hs : starts out = [startId] := hi.started _ (by simp [hp, Phase.start?])
    have hphase : (bootstrapped s startId completion).phase =
        .readying startId completion.session.proposedTurnRecordId completion.session.acceptedTurnRecordId := by
      simp [bootstrapped, hp]
    have hos : starts os = [] ∧ executes os = [] ∧ terminals os = [] ∧ p.terminal? = none := by
      rcases hpub with ⟨rfl, rfl⟩ | ⟨_, rfl, rfl⟩
      · exact ⟨rfl, rfl, rfl, (hi.unreported hover).2⟩
      · exact ⟨rfl, rfl, rfl, rfl⟩
    refine hi.move hover hos.2.2.2 hos.2.1 hos.2.2.1 ?_ ?_ (.inl hos.1) ?_ ?_ ?_
    · simp [hphase, Phase.beforeStart]
    · simp [hphase, hs, hos.1, Phase.start?]
    · simp only [core_phase, hphase]
      intro id r h
      cases hacc' : completion.session.acceptedTurnRecordId with
      | none => simp [hacc', Phase.accepted?] at h
      | some record =>
        simp only [hacc', Phase.accepted?, Option.some.injEq, Prod.mk.injEq] at h
        obtain ⟨rfl, rfl⟩ := h
        exact hacc _ _ (by simp [hs]) (.inr ⟨completion, rfl, hacc'⟩)
    · simp [hp, Phase.beforeExecution]
    · simp [hphase, Phase.executing?]
  | bootstrapFailed hp hf => exact fatal_keeps hi hf
  | @activated startId record diagnostics hp =>
    have hover : s.phase.over = false := by simp [hp, Phase.over, Phase.beforeExecution]
    have hs : starts out = [startId] := hi.started _ (by simp [hp, Phase.start?])
    refine hi.move hover (hi.unreported hover).2 rfl rfl ?_ ?_ (.inl rfl) ?_ ?_ ?_
    · simp [Phase.beforeStart]
    · simp [hs, Phase.start?]
    · intro id r h
      exact hi.accepted id r (by simpa [hp, Phase.accepted?] using h)
    · simp [hp, Phase.beforeExecution]
    · simp [Phase.executing?]
  | activationDrained hp => exact hi.keep silent_nil (.inr rfl) (.inl rfl)
  | operationDrained hp _ => exact hi.keep silent_nil (.inr rfl) (.inl rfl)
  | activationFailed _ hd => exact dispatch_keeps hi hd
  | turnDefect _ hd => exact dispatch_keeps hi hd
  | delivered _ =>
    refine hi.keep (silent_delivered _ _ _ _) (.inl ?_) (.inl ?_) <;>
    · unfold onInputsDelivered
      split <;> rfl
  | deliveryDrained _ _ => exact hi.keep silent_nil (.inl rfl) (.inl rfl)
  | deliveryFailed _ _ hd =>
    have hi' := hi.keep (t := { s with deliveryHeadSequence := none }) silent_nil (.inl rfl) (.inl rfl)
    rw [List.append_nil] at hi'
    exact dispatch_keeps hi' hd
  | turnQuiet hm _ =>
    exact hi.keep (silent_turnDone _ _) (.inr (turnDone_phase s _ hm)) (.inl (turnDone_publication s _))
  | @turnPublished record result pending hm hr _ =>
    obtain ⟨hx, hterm⟩ := hi.completing hm
    obtain ⟨hs, he, ht⟩ := silent_turnDone s result
    refine hi.report pending.fact (turnDone_phase s result hm)
      (.inr ⟨pending, rfl, rfl, (reports_record hr).2⟩) ?_ ?_ ?_ ?_ ?_
    · rw [starts_append, hs]; rfl
    · rw [executes_append, he]; rfl
    · rw [terminals_append, ht]; rfl
    · simp [hterm]
    · exact ⟨record, by simp [hx], hdone _ _ ⟨result, rfl, (reports_record hr).1⟩⟩
  | @turnSnapshot record result pending src hm hr _ hn =>
    obtain ⟨hx, hterm⟩ := hi.completing hm
    obtain ⟨hs, he, ht⟩ := silent_turnDone s result
    obtain ⟨a, b, c, d, e⟩ := Phase.over_spec (turnDone_phase s result hm)
    have hq : Silent ((turnDone s result).outputs ++
        [.command (.uploadSnapshot ⟨result.result.point, some record, true⟩ src)]) := by
      refine ⟨?_, ?_, ?_⟩
      · rw [starts_append, hs]; rfl
      · rw [executes_append, he]; rfl
      · rw [terminals_append, ht]; rfl
    -- as if the publication were empty, and then with the snapshot in it
    have hk := hi.keep (t := { (turnDone s result).state with publication := .none }) hq
      (.inr (turnDone_phase s result hm)) (.inr rfl)
    refine { hk with unreported := ?_, snapshot := ?_, awaiting := ?_ }
    · intro h
      rw [turnDone_phase s result hm] at h
      cases h
    · intro point id terminal h
      cases h
      refine ⟨by simp [hterm, hq.2.2], (reports_record hr).2, record, by simp [hx], ?_⟩
      exact hdone _ _ ⟨result, rfl, (reports_record hr).1⟩
    · intro terminal h
      cases h
  | readyUploaded _ _ => exact hi.keep silent_nil (.inl rfl) (.inr rfl)
  | @terminalUploaded point record terminal hp =>
    obtain ⟨hterm, hid, hset⟩ := hi.snapshot _ _ _ hp
    refine hi.report terminal.fact (hi.over_of_terminal ?_)
      (.inr ⟨terminal, rfl, rfl, hid⟩) rfl rfl rfl ?_ hset
    · simp [hp, Publication.terminal?]
    · simp [hterm]
  | @terminalUploadFailed point record terminal error payload hp hid =>
    obtain ⟨hterm, hfact, hset⟩ := hi.snapshot _ _ _ hp
    refine hi.report (.failed payload) (hi.over_of_terminal ?_)
      (.inl rfl) rfl rfl rfl ?_ ?_
    · simp [hp, Publication.terminal?]
    · simp [hterm]
    · rw [show (TerminalFact.failed payload).turnRecordId = payload.turnRecordId from rfl, hid, ← hfact]
      exact hset
  | cleanupUploaded _ _ => exact hi.keep ⟨rfl, rfl, rfl⟩ (.inr rfl) (.inr rfl)
  | cleanupUploadFailed _ _ hf =>
    have hi' := hi.keep (t := { s with publication := .none }) silent_nil (.inl rfl) (.inr rfl)
    rw [List.append_nil] at hi'
    exact fatal_keeps hi' hf
  | fatalUploaded _ _ => exact hi.keep ⟨rfl, rfl, rfl⟩ (.inr rfl) (.inr rfl)
  | fatalCleaning _ _ _ => exact hi.keep ⟨rfl, rfl, rfl⟩ (.inr rfl) (.inr rfl)
  | retried hp _ _ => exact hi.resend hp
  | retryLapsed _ _ => exact hi.keep silent_nil (.inl rfl) (.inl rfl)
  | cleanedFatal _ _ => exact hi.keep ⟨rfl, rfl, rfl⟩ (.inr rfl) (.inr rfl)
  | cleaned _ _ => exact hi.keep ⟨rfl, rfl, rfl⟩ (.inr rfl) (.inl rfl)
  | cleanupFailed _ hf => exact fatal_keeps hi hf
  | invariantFailed hd => exact dispatch_keeps hi hd

/-- Advancing keeps the invariant: it executes only in an accepted, pending turn. -/
theorem advanced_exec (hi : ExecInv acc done out s) (h : Advanced s os t) : ExecInv acc done (out ++ os) t := by
  induction h generalizing out with
  | rest _ => exact hi.keep silent_nil (.inl rfl) (.inl rfl)
  | @activate s startId proposed record session hp hn hs' =>
    have hover : s.phase.over = false := by simp [hp, Phase.over, Phase.beforeExecution]
    have hs : starts out = [startId] := hi.started _ (by simp [hp, Phase.start?])
    refine hi.move hover (hi.unreported hover).2 rfl rfl ?_ ?_ (.inl rfl) ?_ ?_ ?_
    · simp [Phase.beforeStart]
    · simp [hs, Phase.start?, Output.start?]
    · intro id r h
      exact hi.accepted id r (by simpa [hp, Phase.accepted?] using h)
    · simp [hp, Phase.beforeExecution]
    · simp [Phase.executing?]
  | @ready s os t startId proposed accepted hp hn _ ih =>
    apply ih
    have hover : s.phase.over = false := by simp [hp, Phase.over, Phase.beforeExecution]
    have hs : starts out = [startId] := hi.started _ (by simp [hp, Phase.start?])
    rw [← List.append_nil out]
    refine hi.move hover (hi.unreported hover).2 rfl rfl ?_ ?_ (.inl rfl) ?_ ?_ ?_
    · simp [Phase.beforeStart]
    · simp [hs, Phase.start?]
    · simp [Phase.accepted?]
    · simp [hp, Phase.beforeExecution]
    · simp [Phase.executing?]
  | cleanupSnapshot _ _ _ => exact hi.keep ⟨rfl, rfl, rfl⟩ (.inr rfl) (.inr rfl)
  | cleanup _ _ _ => exact hi.keep ⟨rfl, rfl, rfl⟩ (.inr rfl) (.inl rfl)
  | ignore _ _ _ ih =>
    rw [← List.append_assoc]
    exact ih (hi.keep (silent_ignored _ _) (.inl rfl) (.inl rfl))
  | deliver _ _ => exact hi.keep ⟨rfl, rfl, rfl⟩ (.inl rfl) (.inl rfl)
  | @execute s inputs session startId record hh hp hs' _ =>
    have hover : s.phase.over = false := by simp [hp, Phase.over, Phase.beforeExecution]
    have hs : starts out = [startId] := hi.started _ (by simp [hp, Phase.start?])
    have he : executes out = [] := hi.unexecuted (by simp [hp, Phase.beforeExecution])
    obtain ⟨hterm, hpub⟩ := hi.unreported hover
    have ha : acc startId record := hi.accepted _ _ (by simp [hp, Phase.accepted?])
    have hs' : starts (out ++ [.command (.executeTurn record inputs session)]) = [startId] := by
      simp [hs, Output.start?]
    have he' : executes (out ++ [.command (.executeTurn record inputs session)]) = [record] := by
      simp [he, Output.execute?]
    have ht' : terminals (out ++ [.command (.executeTurn record inputs session)]) = [] := by
      rw [terminals_append, hterm]; rfl
    constructor
    · simp [Phase.beforeStart]
    · simp [hs', Phase.start?]
    · simp [hs']
    · intro id r h
      exact hi.accepted id r (by simpa [hp, Phase.accepted?] using h)
    · simp [Phase.beforeExecution]
    · simp [he', Phase.executing?]
    · simp [he']
    · rw [he', hs']
      intro r hr
      rw [List.mem_singleton] at hr
      exact ⟨startId, rfl, hr ▸ ha⟩
    · exact fun _ => ⟨ht', hpub⟩
    · intro point id terminal h
      simp only at h
      rw [h] at hpub
      cases hpub
    · intro terminal h
      simp only at h
      rw [h] at hpub
      cases hpub
    · simp [ht']
    · simp [ht']

end

/-! ## Runs -/

/-- In history `h` the server accepted record `turnRecordId` for start
`startRecordId`, after the worker had taken that start. -/
def Accepted (h : Hist Event Output) (startRecordId turnRecordId : String) : Prop :=
  ∃ pre e os post, h = pre ++ (e, os) :: post ∧ startRecordId ∈ starts (emitted pre) ∧
    Accepts e startRecordId turnRecordId

/-- In history `h` a completion of turn `r` was about record `id`. -/
def Completed (h : Hist Event Output) (r id : String) : Prop := ∃ e ∈ events h, Completes e r id

theorem Accepted.snoc {h : Hist Event Output} {x : Event × List Output} {id r : String} (ha : Accepted h id r) :
    Accepted (h ++ [x]) id r := by
  obtain ⟨pre, e, os, post, rfl, hs, hacc⟩ := ha
  exact ⟨pre, e, os, post ++ [x], by simp, hs, hacc⟩

theorem Completed.snoc {h : Hist Event Output} {x : Event × List Output} {r id : String} (hc : Completed h r id) :
    Completed (h ++ [x]) r id := by
  obtain ⟨e, he, hc⟩ := hc
  exact ⟨e, by obtain ⟨e', os⟩ := x; simp [he], hc⟩

theorem coreStep_exec {h : Hist Event Output} {s t : State} {e : Event} {os : List Output}
    (hi : ExecInv (Accepted h) (Completed h) (emitted h) s) (hst : CoreStep s e os t) :
    ExecInv (Accepted (h ++ [(e, os)])) (Completed (h ++ [(e, os)])) (emitted (h ++ [(e, os)])) t := by
  have hi' : ExecInv (Accepted (h ++ [(e, os)])) (Completed (h ++ [(e, os)])) (emitted h) s :=
    hi.mono (fun _ _ => Accepted.snoc) (fun _ _ => Completed.snoc)
  rw [emitted_snoc]
  cases hst with
  | exited _ => simpa using hi'
  | thrown _ _ => simpa using hi'
  | ignored _ _ ha => exact advanced_exec hi' ha
  | @handled os m os' t _ hh ha =>
    rw [← List.append_assoc]
    refine advanced_exec (handled_exec hi' ?_ ?_ hh) ha
    · intro id r hid hacc
      exact ⟨h, e, _, [], rfl, hid, hacc⟩
    · intro r id hc
      exact ⟨e, by simp, hc⟩

/-- Only a start message is bootstrapped. -/
theorem handled_starts {s t : State} {e : Event} {os : List Output} (h : Handled s e os t) :
    starts os = [] ∨ ∃ payload, e = .serverMessage (.start payload) ∧ starts os = [payload.startRecordId] := by
  have hf : ∀ {s t : State} {source os}, Fatal s source os t → starts os = [] := by
    intro s t source os hf
    cases hf <;> rfl
  have hd : ∀ {s t : State} {os}, Dispatch s os t → starts os = [] := by
    intro s t os hd
    cases hd with
    | parked _ => rfl
    | fatal _ h => exact hf h
  cases h with
  | start hp => exact .inr ⟨_, rfl, rfl⟩
  | bootstrapReadied _ hpub =>
    rcases hpub with ⟨_, rfl⟩ | ⟨_, _, rfl⟩ <;> exact .inl rfl
  | bootstrapFailed _ h => exact .inl (hf h)
  | activationFailed _ h => exact .inl (hd h)
  | turnDefect _ h => exact .inl (hd h)
  | delivered _ => exact .inl (silent_delivered _ _ _ _).1
  | deliveryFailed _ _ h => exact .inl (hd h)
  | turnQuiet _ _ => exact .inl (silent_turnDone _ _).1
  | turnPublished _ _ _ => exact .inl (by rw [starts_append, (silent_turnDone _ _).1]; rfl)
  | turnSnapshot _ _ _ _ => exact .inl (by rw [starts_append, (silent_turnDone _ _).1]; rfl)
  | cleanupUploadFailed _ _ h => exact .inl (hf h)
  | cleanupFailed _ h => exact .inl (hf h)
  | invariantFailed h => exact .inl (hd h)
  | _ => exact .inl rfl

theorem advanced_starts {s t : State} {os : List Output} (h : Advanced s os t) : starts os = [] := by
  induction h with
  | ignore _ _ _ ih => rw [starts_append, (silent_ignored _ _).1, ih]; rfl
  | ready _ _ _ ih => exact ih
  | _ => rfl

/-- Every start that was bootstrapped came with a start message. -/
theorem starts_taken {h : Hist Event Output} {t : State}
    (hr : Run CoreMachine createInitialWorkerRuntimeState.core h t) :
    ∀ id ∈ starts (emitted h), ∃ payload, .serverMessage (.start payload) ∈ events h ∧ payload.startRecordId = id := by
  refine hr.hist (fun h _ => ∀ id ∈ starts (emitted h),
    ∃ payload, .serverMessage (.start payload) ∈ events h ∧ payload.startRecordId = id) (by simp) ?_
  intro h s e os t hi hst id hid
  rw [emitted_snoc, starts_append] at hid
  rw [events_snoc]
  rcases List.mem_append.1 hid with hid | hid
  · obtain ⟨payload, hp, rfl⟩ := hi id hid
    exact ⟨payload, List.mem_append_left _ hp, rfl⟩
  · cases hst with
    | exited _ => cases hid
    | thrown _ _ => cases hid
    | ignored _ _ ha =>
      rw [advanced_starts ha] at hid
      cases hid
    | handled _ hh ha =>
      rw [starts_append, advanced_starts ha, List.append_nil] at hid
      rcases handled_starts hh with hn | ⟨payload, rfl, hn⟩
      · rw [hn] at hid
        cases hid
      · rw [hn, List.mem_singleton] at hid
        exact ⟨payload, by simp, hid.symm⟩

theorem init_exec : ExecInv (Accepted []) (Completed []) [] createInitialWorkerRuntimeState.core := by
  constructor <;> simp [createInitialWorkerRuntimeState, Phase.start?, Phase.accepted?, Phase.executing?,
    Publication.terminal?]

theorem core_exec {h : Hist Event Output} {t : State}
    (hr : Run CoreMachine createInitialWorkerRuntimeState.core h t) :
    ExecInv (Accepted h) (Completed h) (emitted h) t :=
  hr.hist (fun h s => ExecInv (Accepted h) (Completed h) (emitted h) s) init_exec
    fun _ _ _ _ _ hi hst => coreStep_exec hi hst

/-! ## The worker's runs -/

@[simp] theorem starts_tracked (os : List Output) : starts (tracked os) = starts os := by
  refine filterMap_tracked (fun o h => ?_) os
  unfold Output.start?
  split
  · cases h
  · rfl

@[simp] theorem executes_tracked (os : List Output) : executes (tracked os) = executes os := by
  refine filterMap_tracked (fun o h => ?_) os
  unfold Output.execute?
  split
  · cases h
  · rfl

@[simp] theorem terminals_tracked (os : List Output) : terminals (tracked os) = terminals os := by
  refine filterMap_tracked (fun o h => ?_) os
  unfold Output.terminal?
  split
  · cases h
  · rfl

theorem Accepted.of_tracked {h : Hist Event Output} {id r : String} (ha : Accepted (trackedHist h) id r) :
    Accepted h id r := by
  obtain ⟨pre, e, os, post, heq, hs, hacc⟩ := ha
  obtain ⟨pre', rest, rfl, rfl, hrest⟩ := List.map_eq_append_iff.1 heq
  obtain ⟨⟨e', os'⟩, post', rfl, hx, _⟩ := List.map_eq_cons_iff.1 hrest
  cases hx
  refine ⟨pre', e', os', post', rfl, ?_, hacc⟩
  have : starts (emitted (trackedHist pre')) = starts (emitted pre') := by
    rw [emitted_trackedHist, starts_tracked]
  rwa [← this]

theorem worker_exec {h : Hist Event Output} {t : State} (hr : Run WorkerStep createInitialWorkerRuntimeState h t) :
    ExecInv (Accepted h) (Completed h) (tracked (emitted h)) t.core := by
  rw [← emitted_trackedHist]
  exact (core_exec (run_core hr)).mono (fun _ _ => Accepted.of_tracked)
    (fun _ _ hc => by simpa [Completed, events_trackedHist] using hc)

/-- In every run, whatever arrives in whatever order and however often: an
execution follows the acceptance of its record for the one start the worker
took, at most one turn is executed, a terminal fact is about a record that a
completion of an executed turn carried (so about the executed turn itself, if
completions carry their own record), and outcome and failure exclude each other. -/
theorem execution_follows_acceptance {h : Hist Event Output} {t : State}
    (hr : Run WorkerStep createInitialWorkerRuntimeState h t) :
    (∀ pre e os post, h = pre ++ (e, os) :: post →
      ∀ record inputs session, .command (.executeTurn record inputs session) ∈ os →
        ∃ payload, .serverMessage (.start payload) ∈ events (pre ++ [(e, os)]) ∧
          starts (emitted (pre ++ [(e, os)])) = [payload.startRecordId] ∧
          Accepted (pre ++ [(e, os)]) payload.startRecordId record) ∧
      (executes (emitted h)).length ≤ 1 ∧
      (∀ fact, .fact (.terminal fact) ∈ emitted h →
        ∃ r ∈ executes (emitted h), Completed h r fact.turnRecordId) ∧
      ((∀ r result, .turnCompleted r result ∈ events h → ∀ id, result.result.record? = some id → id = r) →
        ∀ fact, .fact (.terminal fact) ∈ emitted h → fact.turnRecordId ∈ executes (emitted h)) ∧
      ¬((∃ p, .fact (.terminal (.outcome p)) ∈ emitted h) ∧ ∃ p, .fact (.terminal (.failed p)) ∈ emitted h) := by
  have hi := worker_exec hr
  have hset : ∀ fact, .fact (.terminal fact) ∈ emitted h →
      ∃ r ∈ executes (emitted h), Completed h r fact.turnRecordId := by
    intro fact hf
    simpa using hi.settled fact (by simpa using mem_terminals.2 hf)
  refine ⟨?_, by simpa using hi.oneExecution, hset, ?_, ?_⟩
  · intro pre e os post heq record inputs session hx
    obtain ⟨a, b, hpre, hst, _⟩ := hr.split heq
    have hpre' := hpre.snoc hst
    have hi' := worker_exec hpre'
    have hmem : record ∈ executes (emitted (pre ++ [(e, os)])) :=
      mem_executes.2 ⟨inputs, session, by rw [emitted_snoc]; exact List.mem_append_right _ hx⟩
    obtain ⟨id, hid, hacc⟩ := hi'.executedAccepted record (by simpa using hmem)
    rw [starts_tracked] at hid
    have htaken := starts_taken (run_core hpre') id
    rw [emitted_trackedHist, starts_tracked, events_trackedHist, hid] at htaken
    obtain ⟨payload, hp, rfl⟩ := htaken (by simp)
    exact ⟨payload, hp, hid, hacc⟩
  · intro hown fact hf
    obtain ⟨r, hr', e, he, result, rfl, hid⟩ := hset fact hf
    rw [hown r result he _ hid]
    exact hr'
  · rintro ⟨⟨p, hp⟩, q, hq⟩
    have hk := hi.oneKind _ (by simpa using mem_terminals.2 hp) _ (by simpa using mem_terminals.2 hq)
    cases hk

/-- A turn that is accepted, executed and reported. -/
theorem execution_follows_acceptance_demo :
    executes (emitted (workerHistory (demoExecuting .automatic .active ++ [.turnCompleted "turn" demoOutcome]))) =
        ["turn"] ∧
      (executes (emitted (workerHistory
        (demoExecuting .automatic .active ++ [.turnCompleted "turn" demoOutcome])))).length ≤ 1 :=
  ⟨by decide, (execution_follows_acceptance (worker_run _)).2.1⟩

end Leitwerk.Worker
