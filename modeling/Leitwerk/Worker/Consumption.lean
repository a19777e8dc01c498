import Leitwerk.Worker.Delivery
import Mathlib.Data.List.TakeWhile
/-!
# Every input is handed over once

The queue is an `Inbox`, with `lastSequenceConsumed` as its mark. `FeedInv`
says where the inputs are: queued, in the delivery in flight, or consumed.
`inputs_safe`: in every run of a worker with its deliveries whose steps are
orderly (`Feed.orderly`), Pi receives every input at most once and in the order
of the sequences, no input is reported twice, and an input leaves the queue
only by being reported, or when the worker exits.
-/

namespace Leitwerk.Worker

open Runs Inbox

/-! ## Queueing -/

/-- What makes inputs distinguishable: neither an id nor a sequence occurs twice. -/
structure Distinct (offered : InputItem → Prop) : Prop where
  byId : ∀ a b, offered a → offered b → a.inputId = b.inputId → a = b
  bySequence : Numbered InputItem.sequence offered

section
variable {offered : InputItem → Prop}

/-- A re-sent input replaces itself. -/
theorem setById_eq (hd : Distinct offered) {items : List InputItem} {item : InputItem}
    (hs : ∀ i ∈ items, offered i) (hi : offered item) :
    setById items item = if item ∈ items then items else items ++ [item] := by
  unfold setById
  by_cases hmem : item ∈ items
  · have hany : items.any (·.inputId == item.inputId) = true := List.any_eq_true.2 ⟨item, hmem, by simp⟩
    rw [if_pos hany, if_pos hmem]
    refine (List.map_congr_left fun i hi' => ?_).trans (List.map_id items)
    split
    · rename_i he
      exact (hd.byId i item (hs i hi') hi (by simpa using he)).symm
    · rfl
  · have hany : ¬items.any (·.inputId == item.inputId) = true := by
      intro h
      obtain ⟨i, hi', he⟩ := List.any_eq_true.1 h
      exact hmem (hd.byId i item (hs i hi') hi (by simpa using he) ▸ hi')
    rw [if_neg hany, if_neg hmem]

theorem setAll_spec (hd : Distinct offered) (incoming : List InputItem) {items : List InputItem}
    (hs : ∀ i ∈ items, offered i) (hi : ∀ i ∈ incoming, offered i) (hn : items.Nodup) :
    (incoming.foldl setById items).Nodup ∧ ∀ i, i ∈ incoming.foldl setById items ↔ i ∈ items ∨ i ∈ incoming := by
  induction incoming generalizing items with
  | nil => exact ⟨hn, by simp⟩
  | cons item rest ih =>
    have hrest : ∀ i ∈ rest, offered i := fun i h => hi i (List.mem_cons_of_mem _ h)
    rw [List.foldl_cons, setById_eq hd hs (hi item (by simp))]
    split
    · rename_i hmem
      obtain ⟨hn', hm⟩ := ih hs hrest hn
      refine ⟨hn', fun i => (hm i).trans ⟨?_, ?_⟩⟩
      · rintro (h | h)
        · exact .inl h
        · exact .inr (List.mem_cons_of_mem _ h)
      · rintro (h | h)
        · exact .inl h
        · rcases List.mem_cons.1 h with rfl | h
          · exact .inl hmem
          · exact .inr h
    · rename_i hmem
      have hs' : ∀ i ∈ items ++ [item], offered i := by
        intro i h
        rcases List.mem_append.1 h with h | h
        · exact hs i h
        · rw [List.mem_singleton.1 h]
          exact hi item (by simp)
      have hn' : (items ++ [item]).Nodup := List.nodup_append.2 ⟨hn, by simp, by
        rintro i h j hj rfl
        exact hmem (List.mem_singleton.1 hj ▸ h)⟩
      obtain ⟨hn', hm⟩ := ih hs' hrest hn'
      exact ⟨hn', fun i => (hm i).trans (by simp [or_assoc])⟩

theorem insertBySequence_perm (item : InputItem) (items : List InputItem) :
    (insertBySequence item items).Perm (item :: items) := by
  induction items with
  | nil => exact .refl _
  | cons head rest ih =>
    unfold insertBySequence
    split
    · exact .refl _
    · exact (ih.cons head).trans (.swap item head rest)

theorem insertBySequence_sorted (item : InputItem) {items : List InputItem}
    (h : items.Pairwise fun a b => a.sequence ≤ b.sequence) :
    (insertBySequence item items).Pairwise fun a b => a.sequence ≤ b.sequence := by
  induction items with
  | nil => simp [insertBySequence]
  | cons head rest ih =>
    obtain ⟨hhead, hrest⟩ := List.pairwise_cons.1 h
    unfold insertBySequence
    split
    · rename_i hlt
      refine List.pairwise_cons.2 ⟨fun i hi => ?_, h⟩
      rcases List.mem_cons.1 hi with rfl | hi
      · omega
      · have := hhead i hi
        omega
    · rename_i hge
      refine List.pairwise_cons.2 ⟨fun i hi => ?_, ih hrest⟩
      rcases List.mem_cons.1 ((insertBySequence_perm item rest).mem_iff.1 hi) with rfl | hi
      · omega
      · exact hhead i hi

theorem sortBySequence_spec (items : List InputItem) :
    (sortBySequence items).Perm items ∧ (sortBySequence items).Pairwise fun a b => a.sequence ≤ b.sequence := by
  have hfold : ∀ (rest sorted : List InputItem), sorted.Pairwise (fun a b => a.sequence ≤ b.sequence) →
      (rest.foldl (fun sorted item => insertBySequence item sorted) sorted).Perm (sorted ++ rest) ∧
        (rest.foldl (fun sorted item => insertBySequence item sorted) sorted).Pairwise
          fun a b => a.sequence ≤ b.sequence := by
    intro rest
    induction rest with
    | nil => exact fun sorted h => ⟨by simp, h⟩
    | cons item rest ih =>
      intro sorted h
      obtain ⟨hp, hs⟩ := ih _ (insertBySequence_sorted item h)
      exact ⟨hp.trans (((insertBySequence_perm item sorted).append_right rest).trans List.perm_middle.symm), hs⟩
  simpa [sortBySequence] using hfold items [] .nil

/-- Queueing keeps the queue increasing and adds what came in, nothing else. -/
theorem enqueue_spec (hd : Distinct offered) {queue incoming : List InputItem} (hq : ∀ i ∈ queue, offered i)
    (hi : ∀ i ∈ incoming, offered i) :
    Increasing InputItem.sequence (enqueueInputs queue incoming) ∧
      ∀ i, i ∈ enqueueInputs queue incoming ↔ i ∈ queue ∨ i ∈ incoming := by
  obtain ⟨hn, hm⟩ := setAll_spec hd queue (show ∀ i ∈ ([] : List InputItem), offered i by simp) hq .nil
  simp only [List.not_mem_nil, false_or] at hm
  obtain ⟨hn', hm'⟩ := setAll_spec hd incoming (fun i h => hq i ((hm i).1 h)) hi hn
  obtain ⟨hp, hs⟩ := sortBySequence_spec (incoming.foldl setById (queue.foldl setById []))
  have hmem : ∀ i, i ∈ enqueueInputs queue incoming ↔ i ∈ queue ∨ i ∈ incoming := by
    intro i
    unfold enqueueInputs
    rw [hp.mem_iff, hm' i, hm i]
  refine ⟨increasing_of_le hd.bySequence (fun i h => ?_) (hp.nodup_iff.2 hn') hs, hmem⟩
  rcases (hmem i).1 h with h | h
  · exact hq i h
  · exact hi i h

end

/-! ## The invariant -/

/-- A phase from which the worker only goes on to exit. -/
def Phase.ending (p : Phase) : Bool := p.stopping || p == .exited

/-- After a failed delivery, a state in which the worker would hand the same inputs over again. -/
def retries (s : State) : Bool := !s.phase.ending && !s.sessionTainted && parks (failureContext s)

/-- A state that hands over nothing any more: the worker is ending, its session
is tainted, or it ends with a failure. -/
def Spoiled (s : State) : Prop :=
  s.phase.ending = true ∨ s.phase.beforeSession = false ∧ s.sessionTainted = true ∨
    (∃ fatal after, s.publication = .fatalSnapshot fatal after) ∧ s.session.any (·.kind == .llm) = true

/-- The inputs in the hands of a delivery or an execution. -/
def Feed.inFlight (x : Feed) : List InputItem :=
  (x.delivery.map (·.batch)).getD [] ++ x.targeted.getD []

/-- A step that neither repeats a call nor brings an input that belongs before
the inputs in flight. -/
def Feed.orderly (x : Feed) : FeedEvent → Bool
  | .worker e =>
    e.inputs.all fun i =>
      decide (i.sequence ≤ x.state.lastSequenceConsumed) || x.state.inputQueue.contains i ||
        x.inFlight.all fun j => decide (j.sequence < i.sequence)
  | .piCall (.error _) => !retries x.state
  | _ => true

/-- The delivery in flight passes the front of the queue, in order and after everything passed before. -/
structure Delivering (offered : InputItem → Prop) (x : Feed) (d : Delivery) : Prop where
  valid : ∀ i ∈ d.batch, offered i
  increasing : Increasing InputItem.sequence d.batch
  out : d.out.map (fun o => (o.inputId, o.sequence)) = d.passed.map fun i => (i.inputId, i.sequence)
  later : ∀ c ∈ x.calls, ∀ i ∈ d.rest, c.input.sequence < i.sequence
  front : x.state.phase = .exited ∨
    d.batch <+: x.state.inputQueue ∧ x.state.deliveryHeadSequence = some d.headSequence ∧
      d.batch.head?.map (·.sequence) = some d.headSequence ∧ (∀ i ∈ d.batch, i.targeted = false) ∧
        (x.state.phase.ending = true ∨ x.state.session.any (·.piAvailable) = true)

/-- Where the inputs are. `gone` are the inputs reported as consumed. -/
structure FeedInv (offered : InputItem → Prop) (x : Feed) (gone : List InputItem) : Prop where
  fits : Fits x.state
  inbox : Ordered InputItem.sequence offered x.state.inputQueue x.state.lastSequenceConsumed gone
  consumed : x.consumed = gone.map (·.inputId)
  called : ∀ c ∈ x.calls, offered c.input
  increasing : Increasing (fun c : PiCall => c.input.sequence) x.calls
  delivering : ∀ d, x.delivery = some d → Delivering offered x d
  idle : x.delivery = none → x.state.phase ≠ .exited → x.state.deliveryHeadSequence = none
  settled : ∀ c ∈ x.calls, c.input.sequence ≤ x.state.lastSequenceConsumed ∨
    (∃ d, x.delivery = some d ∧ c.input ∈ d.passed) ∨ Spoiled x.state
  applying : ∀ ts, x.targeted = some ts → x.state.phase = .exited ∨
    ts <+: x.state.inputQueue ∧ ∀ i ∈ ts, i.targeted = true

/-- From one feed to a later one: nothing unreports an input, and an input
leaves the queue by being reported or when the worker exits. -/
structure FeedKeeps (x y : Feed) : Prop where
  consumed : x.consumed <+: y.consumed
  queue : ∀ i ∈ x.state.inputQueue, i ∈ y.state.inputQueue ∨ i.inputId ∈ y.consumed ∨ y.state.phase = .exited
  exited : x.state.phase = .exited → y.state.phase = .exited

theorem FeedKeeps.refl (x : Feed) : FeedKeeps x x := ⟨List.prefix_refl _, fun _ h => .inl h, id⟩

theorem FeedKeeps.trans {x y z : Feed} (h : FeedKeeps x y) (h' : FeedKeeps y z) : FeedKeeps x z where
  consumed := h.consumed.trans h'.consumed
  queue i hi := by
    rcases h.queue i hi with hq | hc | hx
    · exact h'.queue i hq
    · exact .inr (.inl (h'.consumed.subset hc))
    · exact .inr (.inr (h'.exited hx))
  exited hx := h'.exited (h.exited hx)

section
variable {offered : InputItem → Prop} {x : Feed} {gone : List InputItem} {s t : State} {e : Event} {os os' : List Output}

@[simp] theorem feeds_nil : feeds [] = [] := rfl
@[simp] theorem feeds_append (a b : List Output) : feeds (a ++ b) = feeds a ++ feeds b := by simp [feeds]

theorem foldl_absorb_state (x : Feed) (fs : List FeedOutput) (t : State) :
    { fs.foldl Feed.absorb x with state := t } = fs.foldl Feed.absorb { x with state := t } := by
  induction fs generalizing x with
  | nil => rfl
  | cons f fs ih =>
    rw [List.foldl_cons, List.foldl_cons, ih]
    cases f <;> rfl

theorem after_append (x : Feed) (os os' : List Output) (s t : State) :
    x.after (os ++ os') t = (x.after os s).after os' t := by
  unfold Feed.after
  rw [feeds_append, List.foldl_append, foldl_absorb_state]

theorem after_quiet (x : Feed) (t : State) (h : feeds os = []) : x.after os t = { x with state := t } := by
  simp [Feed.after, h]

/-- Reported inputs are appended to the consumed ones. -/
theorem after_consumed (x : Feed) (t : State) {ids : List String} (h : feeds os = ids.map .consumed) :
    x.after os t = { x with state := t, consumed := x.consumed ++ ids } := by
  have hfold : ∀ (ids : List String) (x : Feed),
      (ids.map FeedOutput.consumed).foldl Feed.absorb x = { x with consumed := x.consumed ++ ids } := by
    intro ids
    induction ids with
    | nil => simp
    | cons id ids ih =>
      intro x
      rw [List.map_cons, List.foldl_cons, ih]
      simp [Feed.absorb]
  rw [Feed.after, h, hfold]

/-! ## States that hand over nothing -/

/-- How a step moves on: towards the exit, or with its session and its taint. -/
def Moves (s t : State) : Prop :=
  t.phase.ending = true ∨ s.phase.ending = false ∧
    (s.phase.beforeSession = true ∨ t.phase.beforeSession = false ∧ (s.sessionTainted = true → t.sessionTainted = true) ∧
      (s.session.any (·.kind == .llm) = true → t.session.any (·.kind == .llm) = true) ∧
        (s.session.any (·.piAvailable) = true → t.session.any (·.piAvailable) = true))

theorem ending_exited (h : t.phase = .exited) : t.phase.ending = true := by simp [Phase.ending, h]

/-- A step that keeps phase, taint and session. -/
theorem moves_keep (hp : t.phase = s.phase) (ht : t.sessionTainted = s.sessionTainted) (hs : t.session = s.session) :
    Moves s t := by
  unfold Moves
  rw [hp, ht, hs]
  cases s.phase.ending <;> cases s.phase.beforeSession <;> simp

/-- A step from a running phase to one that has a session. -/
theorem moves_on (h0 : s.phase.ending = false) (hp : t.phase.beforeSession = false)
    (ht : t.sessionTainted = s.sessionTainted) (hs : t.session = s.session ∨ t.session = s.session.map activatedSession) :
    Moves s t := by
  have hact : ∀ session : PreparedWorkerSession, (activatedSession session).kind = session.kind ∧
      (session.piAvailable = true → (activatedSession session).piAvailable = true) := by
    intro session
    unfold activatedSession PreparedWorkerSession.kind PreparedWorkerSession.piAvailable
    cases h : session.runtime <;> simp_all
  refine .inr ⟨h0, .inr ⟨hp, by simp [ht], ?_, ?_⟩⟩
  · rcases hs with hs | hs
    · simp [hs]
    · rw [hs]
      cases s.session with
      | none => simp
      | some session => simp [(hact session).1]
  · rcases hs with hs | hs
    · simp [hs]
    · rw [hs]
      cases s.session with
      | none => simp
      | some session => simpa using (hact session).2

theorem fatal_moves {source : Option SnapshotSource} (h : Fatal s source os t) : Moves s t := by
  cases h with
  | snapshot _ _ => exact moves_keep rfl rfl rfl
  | exit _ => exact .inl (ending_exited rfl)

theorem dispatch_moves (h : Dispatch s os t) : Moves s t := by
  cases h with
  | parked _ => exact moves_keep rfl rfl rfl
  | fatal _ hf => exact fatal_moves hf

theorem turnDone_tainted (s : State) (result : SelectedTurnExecutionResult) :
    (turnDone s result).state.sessionTainted = s.sessionTainted := by
  unfold turnDone finishDrainingOperation
  split <;> rfl

theorem turnDone_sameSession (s : State) (result : SelectedTurnExecutionResult) :
    (turnDone s result).state.session = s.session := by
  unfold turnDone finishDrainingOperation
  split <;> rfl

theorem turnDone_moves {record : String} (result : SelectedTurnExecutionResult) (hm : matchesTurn s record = true)
    (hp : t.phase = (turnDone s result).state.phase) (ht : t.sessionTainted = s.sessionTainted)
    (hs : t.session = s.session) : Moves s t := by
  unfold matchesTurn at hm
  unfold turnDone finishDrainingOperation at hp
  split at hm
  · rename_i hph
    refine moves_on (by simp [hph, Phase.ending, Phase.stopping]) ?_ ht (.inl hs)
    simp [hp, hph, removeAppliedTargeted, completedPhase, Phase.beforeSession]
  · rename_i hph
    exact .inl (by simp [hp, hph, removeAppliedTargeted, completedPhase, Phase.ending, Phase.stopping])
  · cases hm

theorem handled_moves (h : Handled s e os t) : Moves s t := by
  have before : s.phase.ending = false → s.phase.beforeSession = true → Moves s t := fun h0 hb => .inr ⟨h0, .inl hb⟩
  cases h with
  | started hp => exact before (by simp [hp, Phase.ending, Phase.stopping]) (by simp [hp, Phase.beforeSession])
  | reconnected _ => exact moves_keep rfl rfl rfl
  | transportLost => exact .inl (ending_exited rfl)
  | stopped _ _ => exact .inl rfl
  | tainted =>
    unfold Moves
    cases s.phase.ending <;> cases s.phase.beforeSession <;> simp
  | start hp => exact before (by simp [hp, Phase.ending, Phase.stopping]) (by simp [hp, Phase.beforeSession])
  | batch _ _ =>
    unfold onInputBatch
    split <;> exact moves_keep rfl rfl rfl
  | acceptedEarly hp => exact moves_on (by simp [hp, Phase.ending, Phase.stopping]) rfl rfl (.inl rfl)
  | accepted hp _ => exact moves_on (by simp [hp, Phase.ending, Phase.stopping]) rfl rfl (.inl rfl)
  | acknowledged _ => exact moves_keep rfl rfl rfl
  | bootstrapDrained hp => exact .inl (by simp [bootstrapped, hp, Phase.ending, Phase.stopping])
  | bootstrapReadied hp _ =>
    exact before (by simp [hp, Phase.ending, Phase.stopping]) (by simp [hp, Phase.beforeSession])
  | bootstrapFailed _ hf => exact fatal_moves hf
  | activated hp => exact moves_on (by simp [hp, Phase.ending, Phase.stopping]) rfl rfl (.inr rfl)
  | activationDrained _ => exact .inl rfl
  | operationDrained _ _ => exact .inl rfl
  | activationFailed _ hd => exact dispatch_moves hd
  | turnDefect _ hd => exact dispatch_moves hd
  | delivered _ =>
    unfold onInputsDelivered
    split <;> exact moves_keep rfl rfl rfl
  | deliveryDrained _ _ => exact moves_keep rfl rfl rfl
  | deliveryFailed _ _ hd =>
    cases hd with
    | parked _ => exact moves_keep rfl rfl rfl
    | fatal _ hf =>
      cases hf with
      | snapshot _ _ => exact moves_keep rfl rfl rfl
      | exit _ => exact .inl (ending_exited rfl)
  | turnQuiet hm _ => exact turnDone_moves _ hm rfl (turnDone_tainted _ _) (turnDone_sameSession _ _)
  | @turnPublished record result _ hm _ _ =>
    exact turnDone_moves result hm rfl (turnDone_tainted s result) (turnDone_sameSession s result)
  | @turnSnapshot record result _ _ hm _ _ _ =>
    exact turnDone_moves result hm rfl (turnDone_tainted s result) (turnDone_sameSession s result)
  | readyUploaded _ _ => exact moves_keep rfl rfl rfl
  | terminalUploaded _ => exact moves_keep rfl rfl rfl
  | terminalUploadFailed _ _ => exact moves_keep rfl rfl rfl
  | cleanupUploaded _ _ => exact .inl rfl
  | cleanupUploadFailed _ _ hf =>
    cases hf with
    | snapshot _ _ => exact moves_keep rfl rfl rfl
    | exit _ => exact .inl (ending_exited rfl)
  | fatalUploaded _ _ => exact .inl (ending_exited rfl)
  | fatalCleaning _ _ _ => exact .inl rfl
  | retried _ _ _ => exact moves_keep rfl rfl rfl
  | retryLapsed _ _ => exact moves_keep rfl rfl rfl
  | cleanedFatal _ _ => exact .inl (ending_exited rfl)
  | cleaned _ _ => exact .inl (ending_exited rfl)
  | cleanupFailed _ hf => exact fatal_moves hf
  | invariantFailed hd => exact dispatch_moves hd

theorem advanced_moves (h : Advanced s os t) : Moves s t := by
  induction h with
  | rest _ => exact moves_keep rfl rfl rfl
  | activate hp _ _ => exact moves_on (by simp [hp, Phase.ending, Phase.stopping]) rfl rfl (.inl rfl)
  | @ready s os t startId proposed accepted hp _ _ ih =>
    rcases ih with h | ⟨_, h | h⟩
    · exact .inl h
    · cases h
    · exact .inr ⟨by simp [hp, Phase.ending, Phase.stopping], .inr h⟩
  | cleanupSnapshot _ _ _ => exact .inl rfl
  | cleanup _ _ _ => exact .inl rfl
  | ignore _ _ _ ih => exact ih
  | deliver _ _ => exact moves_keep rfl rfl rfl
  | execute hh hp _ _ => exact moves_on (by simp [hp, Phase.ending, Phase.stopping]) rfl rfl (.inl rfl)

theorem llm_of_piAvailable (h : s.session.any (·.piAvailable) = true) : s.session.any (·.kind == .llm) = true := by
  cases hs : s.session with
  | none => simp [hs] at h
  | some session =>
    unfold PreparedWorkerSession.piAvailable PreparedWorkerSession.kind at *
    cases hr : session.runtime <;> simp_all

/-- A fatal snapshot of an LLM session stays until the worker is ending. -/
theorem handled_fatal (hi : Fits s) (hx : s.phase ≠ .exited) (h : Handled s e os t)
    (hp : ∃ fatal after, s.publication = .fatalSnapshot fatal after) (hl : s.session.any (·.kind == .llm) = true) :
    t.phase.ending = true ∨ ∃ fatal after, t.publication = .fatalSnapshot fatal after := by
  obtain ⟨fatal, after, hp⟩ := hp
  cases hok : overrunsFatal s e with
  | false =>
    cases handled_slot hi hx hok h with
    | same _ hpub _ => exact .inr ⟨fatal, after, hpub.trans hp⟩
    | opened _ hn _ =>
      rw [hp] at hn
      cases hn
    | settled _ _ _ hf =>
      have hf := hf fatal (by simp [hp, Publication.fatal?])
      cases hpub : t.publication with
      | fatalSnapshot f a => exact .inr ⟨f, a, rfl⟩
      | fatalPendingCleanup f =>
        refine .inl ?_
        have hc := (handled_fits hi h).pendingCleanup f hpub
        unfold Phase.cleaningResources at hc
        split at hc
        · rename_i hph
          simp [hph, Phase.ending, Phase.stopping]
        · cases hc
      | _ => simp [hpub, Publication.fatal?] at hf
    | exited ht _ _ => exact .inl (ending_exited ht)
  | true =>
    -- a result that overruns the snapshot makes the reducer throw, so only the cleanup's end is left
    have hev : (∃ record result, e = .turnCompleted record result) ∨ e = .cleanupSucceeded := by
      unfold overrunsFatal at hok
      split at hok
      · exact .inl ⟨_, _, rfl⟩
      · exact .inr rfl
      · cases hok
    rcases hev with ⟨record, result, rfl⟩ | rfl
    · cases h with
      | stopped he _ => cases he
      | operationDrained _ he => rcases he with ⟨_, _, _, _, _, he⟩ | ⟨_, _, _, _, he⟩ | ⟨_, _, _, he⟩ <;> cases he
      | turnQuiet hm hq =>
        rcases hq with ⟨reason, hq⟩ | hq
        · simp [overrunsFatal, hp, hq] at hok
        · simp [hq] at hl
      | turnPublished hm hr hs =>
        obtain ⟨session, hses, hk⟩ := Option.map_eq_some_iff.1 hs
        simp [hses, hk] at hl
      | turnSnapshot hm hr hs hn =>
        rw [hp] at hn
        cases hn
      | readyUploaded _ he => cases he
      | fatalUploaded _ he => cases he
      | fatalCleaning _ _ he => cases he
    · cases h with
      | stopped he _ => cases he
      | operationDrained _ he => rcases he with ⟨_, _, _, _, _, he⟩ | ⟨_, _, _, _, he⟩ | ⟨_, _, _, he⟩ <;> cases he
      | cleaned _ _ => exact .inl (ending_exited rfl)
      | cleanedFatal _ _ => exact .inl (ending_exited rfl)
      | readyUploaded _ he => cases he
      | fatalUploaded _ he => cases he
      | fatalCleaning _ _ he => cases he

theorem session_of_llm (hi : Fits s) (hl : s.session.any (·.kind == .llm) = true) : s.phase.beforeSession = false := by
  cases hb : s.phase.beforeSession with
  | false => rfl
  | true => simp [hi.sessionless hb] at hl

theorem Spoiled.moves (hi : Fits s) (hs : Spoiled s) (h : Moves s t)
    (hf : (∃ fatal after, s.publication = .fatalSnapshot fatal after) → s.session.any (·.kind == .llm) = true →
      t.phase.ending = true ∨ ∃ fatal after, t.publication = .fatalSnapshot fatal after) : Spoiled t := by
  rcases h with h | ⟨h0, h⟩
  · exact .inl h
  rcases hs with hs | ⟨hb, ht⟩ | ⟨hp, hl⟩
  · rw [h0] at hs
    cases hs
  · rcases h with h | ⟨hb', ht', _⟩
    · rw [hb] at h
      cases h
    · exact .inr (.inl ⟨hb', ht' ht⟩)
  · rcases hf hp hl with h | hp'
    · exact .inl h
    · rcases h with h | ⟨_, _, hl', _⟩
      · rw [session_of_llm hi hl] at h
        cases h
      · exact .inr (.inr ⟨hp', hl' hl⟩)

theorem Moves.available (hi : Fits s) (h : Moves s t)
    (hs : s.phase.ending = true ∨ s.session.any (·.piAvailable) = true) :
    t.phase.ending = true ∨ t.session.any (·.piAvailable) = true := by
  rcases h with h | ⟨h0, h⟩
  · exact .inl h
  rcases hs with hs | hs
  · rw [h0] at hs
    cases hs
  · rcases h with h | ⟨_, _, _, ha⟩
    · rw [session_of_llm hi (llm_of_piAvailable hs)] at h
      cases h
    · exact .inr (ha hs)

/-- A spoiled worker delivers nothing. -/
theorem Spoiled.no_delivery (hs : Spoiled s) {inputs : List InputItem} {start : Bool} (hh : handlesInputs s = true)
    (hd : decideWorkerInputEffect s.inputQueue s.sessionTainted (s.session.any (·.piAvailable)) start =
      .deliver inputs) : False := by
  rcases hs with hs | ⟨_, ht⟩ | ⟨⟨_, _, hp⟩, _⟩
  · unfold Phase.ending Phase.stopping at hs
    unfold handlesInputs at hh
    split at hh <;> simp_all
  · rw [ht] at hd
    unfold decideWorkerInputEffect at hd
    split at hd
    · split at hd <;> cases hd
    · simp at hd
  · have hn := (handlesInputs_none hh).2
    rw [hp] at hn
    cases hn

/-! ## Inputs leave and arrive -/

/-- What every step brings with it, as far as the inputs are concerned. -/
structure Carries (s t : State) : Prop where
  fits : Fits t
  exited : s.phase = .exited → t.phase = .exited
  spoiled : Spoiled s → Spoiled t
  available : s.phase.ending = true ∨ s.session.any (·.piAvailable) = true →
    t.phase.ending = true ∨ t.session.any (·.piAvailable) = true

/-- A step that leaves the inputs where they are. -/
theorem FeedInv.keep (h : FeedInv offered x gone) (hc : Carries x.state t) (hq : t.inputQueue = x.state.inputQueue)
    (hl : t.lastSequenceConsumed = x.state.lastSequenceConsumed)
    (hd : t.deliveryHeadSequence = x.state.deliveryHeadSequence) :
    FeedInv offered { x with state := t } gone ∧ FeedKeeps x { x with state := t } := by
  refine ⟨⟨hc.fits, ?_, h.consumed, h.called, h.increasing, fun d hdel => ?_, ?_, fun c hcall => ?_,
    fun ts hts => ?_⟩, List.prefix_refl _, fun i hi => .inl (hq ▸ hi), hc.exited⟩
  · simpa only [hq, hl] using h.inbox
  · obtain ⟨h1, h2, h3, h4, h5⟩ := h.delivering d hdel
    refine ⟨h1, h2, h3, h4, ?_⟩
    rcases h5 with h5 | ⟨a, b, c, e, f⟩
    · exact .inl (hc.exited h5)
    · exact .inr ⟨hq ▸ a, hd.trans b, c, e, hc.available f⟩
  · exact fun hn hne => hd.trans (h.idle hn fun hex => hne (hc.exited hex))
  · rcases h.settled c hcall with h | h | h
    · exact .inl (hl ▸ h)
    · exact .inr (.inl h)
    · exact .inr (.inr (hc.spoiled h))
  · rcases h.applying ts hts with h | h
    · exact .inl (hc.exited h)
    · exact .inr (hq ▸ h)

/-- The front of the queue leaves it and is reported. Nothing of it is in flight. -/
theorem FeedInv.take (h : FeedInv offered x gone) {p q : List InputItem} (hq : x.state.inputQueue = p ++ q)
    (hc : Carries x.state t) (htq : t.inputQueue = q)
    (hl : t.lastSequenceConsumed = mark InputItem.sequence x.state.lastSequenceConsumed p)
    (hd : t.deliveryHeadSequence = x.state.deliveryHeadSequence)
    (hdel : ∀ d, x.delivery = some d → x.state.phase = .exited ∨ p = [])
    (htar : ∀ ts, x.targeted = some ts → x.state.phase = .exited ∨ ts = [] ∨ p = []) :
    FeedInv offered { x with state := t, consumed := x.consumed ++ p.map (·.inputId) } (gone ++ p) ∧
      FeedKeeps x { x with state := t, consumed := x.consumed ++ p.map (·.inputId) } := by
  have hfront : ∀ l : List InputItem, l <+: x.state.inputQueue → l = [] ∨ p = [] → l <+: t.inputQueue := by
    rintro l hl (rfl | rfl)
    · exact List.nil_prefix
    · rwa [htq, ← List.nil_append q, ← hq]
  refine ⟨⟨hc.fits, ?_, ?_, h.called, h.increasing, fun d hdel' => ?_, ?_, fun c hcall => ?_, fun ts hts => ?_⟩, ?_⟩
  · have hbox := h.inbox
    rw [hq] at hbox
    simpa only [htq, hl] using hbox.take
  · simp [h.consumed]
  · obtain ⟨h1, h2, h3, h4, h5⟩ := h.delivering d hdel'
    refine ⟨h1, h2, h3, h4, ?_⟩
    rcases h5 with h5 | ⟨a, b, c, e, f⟩
    · exact .inl (hc.exited h5)
    · rcases hdel d hdel' with hx | hp
      · exact .inl (hc.exited hx)
      · exact .inr ⟨hfront _ a (.inr hp), hd.trans b, c, e, hc.available f⟩
  · exact fun hn hne => hd.trans (h.idle hn fun hex => hne (hc.exited hex))
  · rcases h.settled c hcall with h | h | h
    · exact .inl (hl ▸ Nat.le_trans h (mark_le _ _))
    · exact .inr (.inl h)
    · exact .inr (.inr (hc.spoiled h))
  · rcases h.applying ts hts with h | ⟨a, b⟩
    · exact .inl (hc.exited h)
    · rcases htar ts hts with hx | hp
      · exact .inl (hc.exited hx)
      · exact .inr ⟨hfront ts a hp, b⟩
  · refine ⟨List.prefix_append _ _, fun i hi => ?_, hc.exited⟩
    rw [hq] at hi
    rcases List.mem_append.1 hi with hi | hi
    · exact .inr (.inl (List.mem_append_right _ (List.mem_map_of_mem hi)))
    · exact .inl (htq ▸ hi)

/-- Inputs arrive above the mark and behind what is in flight. -/
theorem FeedInv.arrive (h : FeedInv offered x gone) (hdist : Distinct offered) {incoming : List InputItem}
    (hc : Carries x.state t) (hq : t.inputQueue = enqueueInputs x.state.inputQueue incoming)
    (hl : t.lastSequenceConsumed = x.state.lastSequenceConsumed)
    (hd : t.deliveryHeadSequence = x.state.deliveryHeadSequence)
    (hin : ∀ i ∈ incoming, offered i ∧ x.state.lastSequenceConsumed < i.sequence)
    (hlate : ∀ i ∈ incoming, i ∈ x.state.inputQueue ∨ ∀ j ∈ x.inFlight, j.sequence < i.sequence) :
    FeedInv offered { x with state := t } gone ∧ FeedKeeps x { x with state := t } := by
  obtain ⟨hinc, hmem⟩ := enqueue_spec hdist h.inbox.valid (fun i hi => (hin i hi).1)
  -- what is in flight stays in front: everything new comes after it
  have hfront : ∀ l : List InputItem, l <+: x.state.inputQueue → (∀ j ∈ l, j ∈ x.inFlight) → l <+: t.inputQueue := by
    intro l hpre hfl
    rw [hq]
    obtain ⟨rest, hrest⟩ := hpre
    have hsorted := h.inbox.increasing
    rw [← hrest] at hsorted
    obtain ⟨hl', _, hlr⟩ := List.pairwise_append.1 hsorted
    refine prefix_of_increasing hinc hl' (fun i hi => (hmem i).2 (.inl (hrest ▸ List.mem_append_left _ hi))) ?_
    intro i hi
    have hold : i ∈ x.state.inputQueue → i ∈ l ∨ ∀ j ∈ l, j.sequence < i.sequence := by
      intro hi
      rw [← hrest] at hi
      rcases List.mem_append.1 hi with hi | hi
      · exact .inl hi
      · exact .inr fun j hj => hlr j hj i hi
    rcases (hmem i).1 hi with hi | hi
    · exact hold hi
    · rcases hlate i hi with hi | hi
      · exact hold hi
      · exact .inr fun j hj => hi j (hfl j hj)
  refine ⟨⟨hc.fits, ?_, h.consumed, h.called, h.increasing, fun d hdel => ?_, ?_, fun c hcall => ?_,
    fun ts hts => ?_⟩, List.prefix_refl _, fun i hi => .inl ?_, hc.exited⟩
  · simp only [hq, hl]
    exact h.inbox.arrive hinc (fun i hi => (hmem i).1 hi) hin
  · obtain ⟨h1, h2, h3, h4, h5⟩ := h.delivering d hdel
    refine ⟨h1, h2, h3, h4, ?_⟩
    rcases h5 with h5 | ⟨a, b, c, e, f⟩
    · exact .inl (hc.exited h5)
    · have hdel : x.delivery = some d := hdel
      exact .inr ⟨hfront _ a fun j hj => by simp [Feed.inFlight, hdel, hj], hd.trans b, c, e, hc.available f⟩
  · exact fun hn hne => hd.trans (h.idle hn fun hex => hne (hc.exited hex))
  · rcases h.settled c hcall with h | h | h
    · exact .inl (hl ▸ h)
    · exact .inr (.inl h)
    · exact .inr (.inr (hc.spoiled h))
  · rcases h.applying ts hts with h | ⟨a, b⟩
    · exact .inl (hc.exited h)
    · have hts : x.targeted = some ts := hts
      exact .inr ⟨hfront _ a fun j hj => by simp [Feed.inFlight, hts, hj], b⟩
  · show i ∈ t.inputQueue
    rw [hq]
    exact (hmem i).2 (.inl hi)

/-! ## A delivery begins, goes on and ends -/

/-- Targeted and ordinary inputs are not both at the front of the queue. -/
theorem fronts_apart {queue ts batch : List InputItem} (ht : ts <+: queue) (htt : ∀ i ∈ ts, i.targeted = true)
    (hb : batch <+: queue) (hbt : ∀ i ∈ batch, i.targeted = false) (hne : batch ≠ []) : ts = [] := by
  cases ts with
  | nil => rfl
  | cons i ts =>
    exfalso
    obtain ⟨j, batch, rfl⟩ := List.exists_cons_of_ne_nil hne
    obtain ⟨rest, rfl⟩ := ht
    obtain ⟨rfl, _⟩ := List.cons_prefix_cons.1 hb
    have h1 := htt j (by simp)
    rw [hbt j (by simp)] at h1
    cases h1

theorem Delivering.batch_ne {d : Delivery} (h : Delivering offered x d) (hx : x.state.phase ≠ .exited) :
    d.batch ≠ [] := by
  rcases h.front with h | ⟨_, _, hhead, _⟩
  · exact absurd h hx
  · rintro hb
    simp [hb] at hhead

/-- The next call: its input is the lowest that has not been passed. -/
theorem FeedInv.pass (h : FeedInv offered x gone) {d : Delivery} (hd : x.delivery = some d) {input : InputItem}
    {rest : List InputItem} (hr : d.rest = input :: rest) (mode : InputDeliveryMode) :
    FeedInv offered { x with calls := x.calls ++ [⟨input, mode⟩], delivery := some (d.pass input rest) } gone := by
  obtain ⟨h1, h2, h3, h4, h5⟩ := h.delivering d hd
  have hbatch : (d.pass input rest).batch = d.batch := by simp [Delivery.batch, Delivery.pass, hr]
  have hinc := h2
  unfold Delivery.batch at hinc
  rw [hr] at hinc
  obtain ⟨hfirst, _⟩ := List.pairwise_cons.1 (List.pairwise_append.1 hinc).2.1
  refine ⟨h.fits, h.inbox, h.consumed, ?_, ?_, ?_, by simp, ?_, h.applying⟩
  · intro c hc
    rcases List.mem_append.1 hc with hc | hc
    · exact h.called c hc
    · rw [List.mem_singleton.1 hc]
      exact h1 input (by simp [Delivery.batch, hr])
  · refine List.pairwise_append.2 ⟨h.increasing, by simp, fun c hc c' hc' => ?_⟩
    rw [List.mem_singleton.1 hc']
    exact h4 c hc input (by simp [hr])
  · rintro _ ⟨⟩
    refine ⟨hbatch ▸ h1, hbatch ▸ h2, by simp [Delivery.pass, h3], fun c hc i hi => ?_, ?_⟩
    · rcases List.mem_append.1 hc with hc | hc
      · exact h4 c hc i (by rw [hr]; exact List.mem_cons_of_mem _ hi)
      · rw [List.mem_singleton.1 hc]
        exact hfirst i hi
    · rw [hbatch]
      exact h5
  · intro c hc
    rcases List.mem_append.1 hc with hc | hc
    · rcases h.settled c hc with h | ⟨d', hd', h⟩ | h
      · exact .inl h
      · rw [hd] at hd'
        cases hd'
        exact .inr (.inl ⟨_, rfl, List.mem_append_left _ h⟩)
      · exact .inr (.inr h)
    · rw [List.mem_singleton.1 hc]
      exact .inr (.inl ⟨_, rfl, by simp [Delivery.pass]⟩)

/-- A delivery ends without a report. It has called Pi only if nothing is handed over any more. -/
theorem FeedInv.drop (h : FeedInv offered x gone) {d : Delivery} (hd : x.delivery = some d) (hc : Carries x.state t)
    (hq : t.inputQueue = x.state.inputQueue) (hl : t.lastSequenceConsumed = x.state.lastSequenceConsumed)
    (hdh : t.phase ≠ .exited → t.deliveryHeadSequence = none) (hs : d.passed = [] ∨ Spoiled t) :
    FeedInv offered { x with state := t, delivery := none } gone ∧ FeedKeeps x { x with state := t, delivery := none } := by
  refine ⟨⟨hc.fits, by simpa only [hq, hl] using h.inbox, h.consumed, h.called, h.increasing, by simp,
    fun _ hne => hdh hne, fun c hcall => ?_, fun ts hts => ?_⟩, List.prefix_refl _, fun i hi => .inl (hq ▸ hi),
    hc.exited⟩
  · rcases h.settled c hcall with h | ⟨d', hd', h⟩ | h
    · exact .inl (hl ▸ h)
    · rw [hd] at hd'
      cases hd'
      rcases hs with hs | hs
      · simp [hs] at h
      · exact .inr (.inr hs)
    · exact .inr (.inr (hc.spoiled h))
  · rcases h.applying ts hts with h | h
    · exact .inl (hc.exited h)
    · exact .inr (hq ▸ h)

/-- A delivery ends with its report. -/
theorem FeedInv.complete (h : FeedInv offered x gone) {d : Delivery} (hd : x.delivery = some d)
    (hx : x.state.phase ≠ .exited) {q : List InputItem} (hq : x.state.inputQueue = d.batch ++ q)
    (hc : Carries x.state t) (htq : t.inputQueue = q)
    (hl : t.lastSequenceConsumed = mark InputItem.sequence x.state.lastSequenceConsumed d.batch)
    (hdh : t.deliveryHeadSequence = none) :
    FeedInv offered
        { x with state := t, delivery := none, consumed := x.consumed ++ d.batch.map (·.inputId) } (gone ++ d.batch) ∧
      FeedKeeps x { x with state := t, delivery := none, consumed := x.consumed ++ d.batch.map (·.inputId) } := by
  have hdel := h.delivering d hd
  refine ⟨⟨hc.fits, ?_, by simp [h.consumed], h.called, h.increasing, by simp, fun _ _ => hdh, fun c hcall => ?_,
    fun ts hts => ?_⟩, List.prefix_append _ _, fun i hi => ?_, hc.exited⟩
  · have hbox := h.inbox
    rw [hq] at hbox
    simpa only [htq, hl] using hbox.take
  · rcases h.settled c hcall with h | ⟨d', hd', h⟩ | h
    · exact .inl (hl ▸ Nat.le_trans h (mark_le _ _))
    · rw [hd] at hd'
      cases hd'
      exact .inl (hl ▸ le_mark _ (List.mem_append_left _ h))
    · exact .inr (.inr (hc.spoiled h))
  · rcases h.applying ts hts with h | ⟨a, b⟩
    · exact absurd h hx
    · rcases hdel.front with h | ⟨hpre, _, _, hord, _⟩
      · exact absurd h hx
      · rw [fronts_apart a b hpre hord (hdel.batch_ne hx)]
        exact .inr ⟨List.nil_prefix, by simp⟩
  · rw [hq] at hi
    rcases List.mem_append.1 hi with hi | hi
    · exact .inr (.inl (List.mem_append_right _ (List.mem_map_of_mem hi)))
    · exact .inl (htq ▸ hi)

/-- The front of the queue is handed to a new delivery. -/
theorem FeedInv.deliver (h : FeedInv offered x gone) (hdel : x.delivery = none) (hsp : ¬Spoiled x.state)
    {inputs : List InputItem} {n : Nat} (active : Bool) (hc : Carries x.state t)
    (hpre : inputs <+: x.state.inputQueue) (hord : ∀ i ∈ inputs, i.targeted = false)
    (hn : inputs.head?.map (·.sequence) = some n)
    (hav : x.state.session.any (·.piAvailable) = true) (hq : t.inputQueue = x.state.inputQueue)
    (hl : t.lastSequenceConsumed = x.state.lastSequenceConsumed) (hdh : t.deliveryHeadSequence = some n) :
    FeedInv offered { x with state := t, delivery := some (.begin n inputs active) } gone ∧
      FeedKeeps x { x with state := t, delivery := some (.begin n inputs active) } := by
  obtain ⟨rest, hrest⟩ := hpre
  refine ⟨⟨hc.fits, by simpa only [hq, hl] using h.inbox, h.consumed, h.called, h.increasing, ?_, by simp,
    fun c hcall => ?_, fun ts hts => ?_⟩, List.prefix_refl _, fun i hi => .inl (hq ▸ hi), hc.exited⟩
  · rintro _ ⟨⟩
    have hbatch : (Delivery.begin n inputs active).batch = inputs := rfl
    refine ⟨fun i hi => h.inbox.valid i (hrest ▸ List.mem_append_left _ hi), ?_, rfl, fun c hcall i hi => ?_,
      .inr ⟨⟨rest, hq ▸ hrest⟩, hdh, hn, hord, hc.available (.inr hav)⟩⟩
    · have hinc := h.inbox.increasing
      rw [← hrest] at hinc
      exact (List.pairwise_append.1 hinc).1
    · -- every earlier call is settled, and the queue is above the mark
      have habove := h.inbox.above i (hrest ▸ List.mem_append_left _ hi)
      rcases h.settled c hcall with h | ⟨d, hd, _⟩ | h
      · exact Nat.lt_of_le_of_lt h habove
      · rw [hdel] at hd
        cases hd
      · exact absurd h hsp
  · rcases h.settled c hcall with h | ⟨d, hd, _⟩ | h
    · exact .inl (hl ▸ h)
    · rw [hdel] at hd
      cases hd
    · exact absurd h hsp
  · rcases h.applying ts hts with h | h
    · exact .inl (hc.exited h)
    · exact .inr (hq ▸ h)

/-- An execution takes the targeted inputs at the front of the queue. -/
theorem FeedInv.execute (h : FeedInv offered x gone) {inputs : List InputItem} (hc : Carries x.state t)
    (hpre : inputs <+: x.state.inputQueue) (htar : ∀ i ∈ inputs, i.targeted = true)
    (hq : t.inputQueue = x.state.inputQueue) (hl : t.lastSequenceConsumed = x.state.lastSequenceConsumed)
    (hdh : t.deliveryHeadSequence = x.state.deliveryHeadSequence) :
    FeedInv offered { x with state := t, targeted := some inputs } gone ∧
      FeedKeeps x { x with state := t, targeted := some inputs } := by
  obtain ⟨hk, hkeeps⟩ := h.keep hc hq hl hdh
  refine ⟨⟨hk.fits, hk.inbox, hk.consumed, hk.called, hk.increasing, fun d hd => ?_, hk.idle, hk.settled, ?_⟩,
    hkeeps.consumed, hkeeps.queue, hkeeps.exited⟩
  · obtain ⟨h1, h2, h3, h4, h5⟩ := hk.delivering d hd
    exact ⟨h1, h2, h3, h4, h5⟩
  rintro _ ⟨⟩
  exact .inr ⟨hq ▸ hpre, htar⟩

/-! ## Steps of the worker -/

theorem carries_of_moves (hi : Fits s) (hf : Fits t) (hx : s.phase = .exited → t.phase = .exited) (hm : Moves s t)
    (hp : t.publication = s.publication ∨ s.publication = .none) : Carries s t where
  fits := hf
  exited := hx
  spoiled hs := hs.moves hi hm fun ⟨fatal, after, h⟩ _ => by
    rcases hp with hp | hp
    · exact .inr ⟨fatal, after, hp.trans h⟩
    · rw [h] at hp
      cases hp
  available := hm.available hi

theorem handled_carries (hi : Fits s) (hx : s.phase ≠ .exited) (h : Handled s e os t) : Carries s t where
  fits := handled_fits hi h
  exited hex := absurd hex hx
  spoiled hs := hs.moves hi (handled_moves h) (handled_fatal hi hx h)
  available := (handled_moves h).available hi

theorem advanced_carries (hi : Fits s) (h : Advanced s os t) : Carries s t :=
  carries_of_moves hi (advanced_fits hi h) (fun hx => (advanced_exits hx h).2 ▸ hx) (advanced_moves h)
    ((advanced_publication h).1.imp id (·.1))

theorem handlesInputs_running (h : handlesInputs s = true) : s.phase.ending = false ∧ s.phase ≠ .exited := by
  unfold handlesInputs at h
  split at h <;> simp_all [Phase.ending, Phase.stopping]

theorem deliver_spec {items inputs : List InputItem} {tainted available start : Bool}
    (h : decideWorkerInputEffect items tainted available start = .deliver inputs ∨
      decideWorkerInputEffect items tainted available start = .consumeIgnored inputs) :
    inputs = items.takeWhile (!·.targeted) ∧ inputs ≠ [] ∧
      (decideWorkerInputEffect items tainted available start = .deliver inputs → available = true) := by
  unfold decideWorkerInputEffect at h ⊢
  cases items with
  | nil =>
    simp only at h
    split at h <;> simp at h
  | cons head rest =>
    cases tainted <;> cases available <;> cases ht : head.targeted <;> cases start <;> simp_all <;> simp [← h]

theorem startTurn_spec {items inputs : List InputItem} {tainted available : Bool}
    (h : decideWorkerInputEffect items tainted available true = .startTurn inputs) :
    inputs = items.takeWhile (·.targeted) := by
  unfold decideWorkerInputEffect at h
  cases items with
  | nil => cases tainted <;> simp_all
  | cons head rest => cases tainted <;> cases available <;> cases ht : head.targeted <;> simp_all

/-- A delivery in flight has an input left to pass. -/
def Pending (x : Feed) : Prop := ∀ d, x.delivery = some d → d.rest ≠ []

theorem feeds_ignored (s : State) (inputs : List InputItem) :
    feeds (consumeIgnored s inputs).outputs = (inputs.map (·.inputId)).map .consumed := by
  simp [feeds, consumeIgnored, List.filterMap_map, Function.comp_def, inputConsumedFact, Output.feed?]

theorem queue_ids (hdist : Distinct offered) (h : FeedInv offered x gone) :
    (x.state.inputQueue.map (·.inputId)).Nodup :=
  h.inbox.increasing.nodup.map_on fun i hi j hj he => hdist.byId i j (h.inbox.valid i hi) (h.inbox.valid j hj) he

/-- Advancing keeps the invariant, whatever it does with the inputs. -/
theorem advanced_feed (hdist : Distinct offered) (ha : Advanced s os t) :
    ∀ x gone, x.state = s → FeedInv offered x gone → Pending x →
      ∃ gone', FeedInv offered (x.after os t) gone' ∧ FeedKeeps x (x.after os t) ∧ Pending (x.after os t) := by
  have still : ∀ {os : List Output} {t : State} (x : Feed) (gone), FeedInv offered x gone → Pending x →
      Carries x.state t → feeds os = [] → t.inputQueue = x.state.inputQueue →
      t.lastSequenceConsumed = x.state.lastSequenceConsumed → t.deliveryHeadSequence = x.state.deliveryHeadSequence →
      ∃ gone', FeedInv offered (x.after os t) gone' ∧ FeedKeeps x (x.after os t) ∧ Pending (x.after os t) := by
    intro os t x gone h hp hc ho hq hl hd
    obtain ⟨hi, hk⟩ := h.keep hc hq hl hd
    rw [after_quiet x t ho]
    exact ⟨gone, hi, hk, hp⟩
  induction ha with
  | rest hw =>
    rintro x gone rfl h hp
    exact still x gone h hp (advanced_carries h.fits (.rest hw)) rfl rfl rfl rfl
  | activate h1 h2 h3 =>
    rintro x gone rfl h hp
    exact still x gone h hp (advanced_carries h.fits (.activate h1 h2 h3)) rfl rfl rfl rfl
  | @ready s os t startId proposed accepted h1 h2 ha ih =>
    rintro x gone rfl h hp
    have hf : Fits { x.state with phase := .waitingForAcceptance startId proposed } :=
      Fits.settled rfl rfl (by simp [h2, Publication.ofCleanup]) (by simp [h2])
    have hm : Moves x.state { x.state with phase := .waitingForAcceptance startId proposed } :=
      moves_on (by simp [h1, Phase.ending, Phase.stopping]) rfl rfl (.inl rfl)
    obtain ⟨hi, hk⟩ := h.keep (carries_of_moves h.fits hf (by simp [h1]) hm (.inl rfl)) rfl rfl rfl
    obtain ⟨gone', hi', hk', hp'⟩ := ih _ gone rfl hi hp
    exact ⟨gone', hi', hk.trans hk', hp'⟩
  | @cleanupSnapshot s reason exit src h1 h2 h3 =>
    rintro x gone rfl h hp
    have ha := @Advanced.cleanupSnapshot x.state reason exit src h1 h2 h3
    exact still x gone h hp (advanced_carries h.fits ha) rfl rfl rfl rfl
  | cleanup h1 h2 h3 =>
    rintro x gone rfl h hp
    exact still x gone h hp (advanced_carries h.fits (.cleanup h1 h2 h3)) rfl rfl rfl rfl
  | @ignore s os t inputs start hh hd ha ih =>
    rintro x gone rfl h hp
    obtain ⟨hin, hne, _⟩ := deliver_spec (.inr hd)
    obtain ⟨q, hq⟩ := hin ▸ List.takeWhile_prefix (l := x.state.inputQueue) fun i => !i.targeted
    have hord : ∀ i ∈ inputs, i.targeted = false := by
      intro i hi
      rw [hin] at hi
      simpa using List.mem_takeWhile_imp hi
    have hx := (handlesInputs_running hh).2
    have hids := queue_ids hdist h
    rw [← hq] at hids
    have hqueue : (consumeIgnored x.state inputs).state.inputQueue = q := by
      simp only [consumeIgnored, ← hq]
      exact filter_front hids
    have hc : Carries x.state (consumeIgnored x.state inputs).state :=
      carries_of_moves h.fits (h.fits.keep rfl rfl (.inl rfl)) (fun hex => hex) (moves_keep rfl rfl rfl) (.inl rfl)
    obtain ⟨hi, hk⟩ := h.take hq.symm hc hqueue rfl rfl
      (fun d hd' => by
        rcases (h.delivering d hd').front with hf | ⟨_, hf, _⟩
        · exact .inl hf
        · rw [(handlesInputs_none hh).1] at hf
          cases hf)
      (fun ts hts => by
        rcases h.applying ts hts with ha | ⟨ha, hb⟩
        · exact .inl ha
        · exact .inr (.inl (fronts_apart ha hb ⟨q, hq⟩ hord hne)))
    obtain ⟨gone', hi', hk', hp'⟩ := ih _ _ rfl hi hp
    rw [after_append x _ os (consumeIgnored x.state inputs).state, after_consumed x _ (feeds_ignored x.state inputs)]
    exact ⟨gone', hi', hk.trans hk', hp'⟩
  | @deliver s inputs start active hh hd =>
    rintro x gone rfl h hp
    obtain ⟨hin, hne, hav⟩ := deliver_spec (.inl hd)
    have hnone : x.delivery = none := by
      cases hdel : x.delivery with
      | none => rfl
      | some d =>
        rcases (h.delivering d hdel).front with hf | ⟨_, hf, _⟩
        · exact absurd hf (handlesInputs_running hh).2
        · rw [(handlesInputs_none hh).1] at hf
          cases hf
    obtain ⟨i, rest, rfl⟩ := List.exists_cons_of_ne_nil hne
    have ha := @Advanced.deliver x.state (i :: rest) start active hh hd
    obtain ⟨hi, hk⟩ := h.deliver hnone (fun hs => hs.no_delivery hh hd) active (advanced_carries h.fits ha) (hin ▸ List.takeWhile_prefix _)
      (fun j hj => by rw [hin] at hj; simpa using List.mem_takeWhile_imp hj) rfl (hav hd) rfl rfl rfl
    exact ⟨gone, hi, hk, by rintro _ ⟨⟩; simp [Delivery.begin]⟩
  | @execute s inputs session startId record hh hph hs hd =>
    rintro x gone rfl h hp
    have hin := startTurn_spec hd
    obtain ⟨hi, hk⟩ := h.execute (advanced_carries h.fits (.execute hh hph hs hd)) (hin ▸ List.takeWhile_prefix _)
      (fun j hj => by rw [hin] at hj; simpa using List.mem_takeWhile_imp hj) rfl rfl rfl
    exact ⟨gone, hi, hk, hp⟩

/-- The applied inputs leave the front of the queue, one by one. -/
theorem removeApplied_spec (applied : List AppliedTargetedInput) {queue ts : List InputItem} (last : Nat)
    (hts : ts <+: queue) (htar : ∀ i ∈ ts, i.targeted = true)
    (hap : applied.map (fun a => (a.inputId, a.sequence)) <+: ts.map fun i => (i.inputId, i.sequence)) :
    ∃ p q, queue = p ++ q ∧ (removeApplied queue last applied).1 = q ∧
      (removeApplied queue last applied).2.1 = mark InputItem.sequence last p ∧
      feeds (removeApplied queue last applied).2.2 = (p.map (·.inputId)).map .consumed ∧ p <+: ts ∧
      p.map (·.inputId) = applied.map (·.inputId) := by
  induction applied generalizing queue ts last with
  | nil => exact ⟨[], queue, rfl, by simp [removeApplied], by simp [removeApplied, mark], by simp [removeApplied],
      List.nil_prefix, rfl⟩
  | cons a applied ih =>
    cases ts with
    | nil => simp at hap
    | cons i ts =>
      obtain ⟨rest, rfl⟩ := hts
      rw [List.map_cons, List.map_cons, List.cons_prefix_cons] at hap
      obtain ⟨ha, hap⟩ := hap
      obtain ⟨hid, hseq⟩ := Prod.mk.inj ha
      obtain ⟨p, q, hq, h1, h2, h3, h4, h5⟩ := ih (max last a.sequence) (List.prefix_append ts rest)
        (fun j hj => htar j (List.mem_cons_of_mem _ hj)) hap
      have hstep : removeApplied (i :: ts ++ rest) last (a :: applied) =
          ((removeApplied (ts ++ rest) (max last a.sequence) applied).1,
            (removeApplied (ts ++ rest) (max last a.sequence) applied).2.1,
            inputConsumedFact a.inputId a.sequence .appendMessage a.info ::
              (removeApplied (ts ++ rest) (max last a.sequence) applied).2.2) := by
        simp [removeApplied, hid, hseq, htar i (by simp)]
      rw [hstep]
      refine ⟨i :: p, q, by rw [List.cons_append, List.cons_append, hq], h1, ?_, ?_,
        List.cons_prefix_cons.2 ⟨rfl, h4⟩, by simp [h5, hid]⟩
      · rw [h2, hseq]
        rfl
      · simpa [feeds, inputConsumedFact, Output.feed?, hid] using h3

theorem turnDone_inputs (s : State) (result : SelectedTurnExecutionResult) :
    (turnDone s result).state.inputQueue =
        (removeApplied s.inputQueue s.lastSequenceConsumed result.appliedTargetedInputs).1 ∧
      (turnDone s result).state.lastSequenceConsumed =
        (removeApplied s.inputQueue s.lastSequenceConsumed result.appliedTargetedInputs).2.1 ∧
      (turnDone s result).outputs =
        (removeApplied s.inputQueue s.lastSequenceConsumed result.appliedTargetedInputs).2.2 := by
  unfold turnDone finishDrainingOperation
  split <;> exact ⟨rfl, rfl, rfl⟩

/-- The worker exits and forgets its queue. -/
theorem FeedInv.leave (h : FeedInv offered x gone) (hc : Carries x.state t) (hx : t.phase = .exited)
    (hq : t.inputQueue = []) (hl : t.lastSequenceConsumed = x.state.lastSequenceConsumed) :
    FeedInv offered { x with state := t } gone ∧ FeedKeeps x { x with state := t } := by
  refine ⟨⟨hc.fits, ?_, h.consumed, h.called, h.increasing, fun d hd => ?_, fun _ hne => absurd hx hne,
    fun c _ => .inr (.inr (.inl (ending_exited hx))), fun _ _ => .inl hx⟩, List.prefix_refl _,
    fun _ _ => .inr (.inr hx), fun _ => hx⟩
  · exact ⟨by simp [hq], by simp [hq], by simp [hq], h.inbox.goneValid, hl ▸ h.inbox.below, h.inbox.once⟩
  · obtain ⟨h1, h2, h3, h4, _⟩ := h.delivering d hd
    exact ⟨h1, h2, h3, h4, .inl hx⟩

/-- A completed turn takes the applied inputs out of the queue. -/
theorem turn_feed {x : Feed} {result : SelectedTurnExecutionResult} {ts : List InputItem} (hi : FeedInv offered x gone)
    (hx : x.state.phase ≠ .exited) (htar : x.targeted = none) (hc : Carries x.state t)
    (hq : t.inputQueue = (turnDone x.state result).state.inputQueue)
    (hl : t.lastSequenceConsumed = (turnDone x.state result).state.lastSequenceConsumed)
    (hd : t.deliveryHeadSequence = x.state.deliveryHeadSequence) (ho : feeds os = feeds (turnDone x.state result).outputs)
    (hts : ts <+: x.state.inputQueue) (htst : ∀ i ∈ ts, i.targeted = true)
    (hap : result.appliedTargetedInputs.map (fun a => (a.inputId, a.sequence)) <+:
      ts.map fun i => (i.inputId, i.sequence)) :
    ∃ gone', FeedInv offered (x.after os t) gone' ∧ FeedKeeps x (x.after os t) ∧ (x.after os t).delivery = x.delivery ∧
      ∀ a ∈ result.appliedTargetedInputs, a.inputId ∈ (x.after os t).consumed := by
  obtain ⟨h1, h2, h3⟩ := turnDone_inputs x.state result
  obtain ⟨p, q, hpq, hr1, hr2, hr3, hpre, hids⟩ := removeApplied_spec _ x.state.lastSequenceConsumed hts htst hap
  obtain ⟨hi', hk⟩ := hi.take hpq hc (hq.trans (h1.trans hr1)) (hl.trans (h2.trans hr2)) hd
    (fun d hdel => by
      by_cases hp : p = []
      · exact .inr hp
      · have hdel := hi.delivering d hdel
        rcases hdel.front with hf | ⟨hf, _, _, hord, _⟩
        · exact .inl hf
        · have hnil := fronts_apart (hpre.trans hts) (fun i h => htst i (hpre.subset h)) hf hord (hdel.batch_ne hx)
          exact absurd hnil hp)
    (fun ts hts => by rw [htar] at hts; cases hts)
  have hfeeds : feeds os = (p.map (·.inputId)).map .consumed := by rw [ho, h3, hr3]
  rw [after_consumed x t hfeeds]
  refine ⟨_, hi', hk, rfl, fun a ha => List.mem_append_right _ ?_⟩
  rw [hids]
  exact List.mem_map_of_mem ha

/-- What a worker event brings and applies fits the inputs the feed knows. -/
structure Brings (offered : InputItem → Prop) (x : Feed) (e : Event) (ts : List InputItem) : Prop where
  valid : ∀ i ∈ e.inputs, offered i
  late : ∀ i ∈ e.inputs, x.state.lastSequenceConsumed < i.sequence →
    i ∈ x.state.inputQueue ∨ ∀ j ∈ x.inFlight, j.sequence < i.sequence
  front : ts <+: x.state.inputQueue ∧ ∀ i ∈ ts, i.targeted = true
  applied : e.applied.map (fun a => (a.inputId, a.sequence)) <+: ts.map fun i => (i.inputId, i.sequence)
  ended : e.endsTurn = true → x.targeted = none

theorem Brings.incoming {ts : List InputItem} (hb : Brings offered x e ts) {inputs : List InputItem}
    (hin : ∀ i ∈ inputs, i ∈ e.inputs) :
    (∀ i ∈ inputs.filter (·.sequence > x.state.lastSequenceConsumed),
        offered i ∧ x.state.lastSequenceConsumed < i.sequence) ∧
      ∀ i ∈ inputs.filter (·.sequence > x.state.lastSequenceConsumed),
        i ∈ x.state.inputQueue ∨ ∀ j ∈ x.inFlight, j.sequence < i.sequence := by
  refine ⟨fun i hi => ?_, fun i hi => ?_⟩ <;>
  · obtain ⟨hmem, hlt⟩ := List.mem_filter.1 hi
    have hlt : x.state.lastSequenceConsumed < i.sequence := by simpa using hlt
    first
    | exact ⟨hb.valid i (hin i hmem), hlt⟩
    | exact hb.late i (hin i hmem) hlt

/-- An event that does not end a delivery keeps the invariant, and reports what it says was applied. -/
theorem handled_feed (hdist : Distinct offered) (h : Handled x.state e os t) (hi : FeedInv offered x gone)
    (hx : x.state.phase ≠ .exited) (he : e.endsDelivery = false) {ts : List InputItem} (hb : Brings offered x e ts) :
    ∃ gone', FeedInv offered (x.after os t) gone' ∧ FeedKeeps x (x.after os t) ∧ (x.after os t).delivery = x.delivery ∧
      ∀ a ∈ e.applied, a.inputId ∈ (x.after os t).consumed := by
  have hc := handled_carries hi.fits hx h
  have still : feeds os = [] → t.inputQueue = x.state.inputQueue →
      t.lastSequenceConsumed = x.state.lastSequenceConsumed → t.deliveryHeadSequence = x.state.deliveryHeadSequence →
      e.applied = [] → ∃ gone', FeedInv offered (x.after os t) gone' ∧ FeedKeeps x (x.after os t) ∧
        (x.after os t).delivery = x.delivery ∧ ∀ a ∈ e.applied, a.inputId ∈ (x.after os t).consumed := by
    intro ho hq hl hd ha
    obtain ⟨hi', hk⟩ := hi.keep hc hq hl hd
    rw [after_quiet x t ho, ha]
    exact ⟨gone, hi', hk, rfl, by simp⟩
  have arrive : ∀ inputs : List InputItem, (∀ i ∈ inputs, i ∈ e.inputs) → feeds os = [] →
      t.inputQueue = enqueueInputs x.state.inputQueue (inputs.filter (·.sequence > x.state.lastSequenceConsumed)) →
      t.lastSequenceConsumed = x.state.lastSequenceConsumed → t.deliveryHeadSequence = x.state.deliveryHeadSequence →
      e.applied = [] → ∃ gone', FeedInv offered (x.after os t) gone' ∧ FeedKeeps x (x.after os t) ∧
        (x.after os t).delivery = x.delivery ∧ ∀ a ∈ e.applied, a.inputId ∈ (x.after os t).consumed := by
    intro inputs hin ho hq hl hd ha
    obtain ⟨hin1, hin2⟩ := hb.incoming hin
    obtain ⟨hi', hk⟩ := hi.arrive hdist hc hq hl hd hin1 hin2
    rw [after_quiet x t ho, ha]
    exact ⟨gone, hi', hk, rfl, by simp⟩
  have dispatch : ∀ {os t}, Dispatch x.state os t → feeds os = [] ∧ t.inputQueue = x.state.inputQueue ∧
      t.lastSequenceConsumed = x.state.lastSequenceConsumed ∧
      t.deliveryHeadSequence = x.state.deliveryHeadSequence := by
    intro os t hd
    cases hd with
    | parked _ => exact ⟨rfl, rfl, rfl, rfl⟩
    | fatal _ hf => cases hf <;> exact ⟨rfl, rfl, rfl, rfl⟩
  cases h with
  | started _ => exact still rfl rfl rfl rfl rfl
  | reconnected _ => exact still rfl rfl rfl rfl rfl
  | transportLost => exact still rfl rfl rfl rfl rfl
  | stopped hs _ =>
    refine still rfl rfl rfl rfl ?_
    unfold Event.isStop at hs
    split at hs <;> first | rfl | cases hs
  | tainted => exact still rfl rfl rfl rfl rfl
  | start _ => exact still rfl rfl rfl rfl rfl
  | @batch inputs h1 h2 =>
    refine arrive (inputs.map inputDeliveryToItem) (fun i hi => hi) rfl ?_ ?_ ?_ rfl <;>
    · unfold onInputBatch
      split <;> first | rfl | exact absurd ‹_› h1 | exact absurd ‹_› h2
  | acceptedEarly _ => exact still rfl rfl rfl rfl rfl
  | accepted _ _ => exact still rfl rfl rfl rfl rfl
  | acknowledged _ => exact still rfl rfl rfl rfl rfl
  | bootstrapDrained _ => exact arrive _ (fun i hi => hi) rfl rfl rfl rfl rfl
  | bootstrapReadied _ hp =>
    rcases hp with ⟨_, rfl⟩ | ⟨_, _, rfl⟩ <;> exact arrive _ (fun i hi => hi) rfl rfl rfl rfl rfl
  | bootstrapFailed _ hf => cases hf <;> exact still rfl rfl rfl rfl rfl
  | activated _ => exact still rfl rfl rfl rfl rfl
  | activationDrained _ => exact still rfl rfl rfl rfl rfl
  | operationDrained _ ho =>
    rcases ho with ⟨_, _, _, _, _, rfl⟩ | ⟨_, _, _, _, rfl⟩ | ⟨_, _, _, rfl⟩ <;> exact still rfl rfl rfl rfl rfl
  | activationFailed _ hd =>
    obtain ⟨ho, hq, hl, hd⟩ := dispatch hd
    exact still ho hq hl hd rfl
  | turnDefect _ hd =>
    obtain ⟨ho, hq, hl, hd⟩ := dispatch hd
    exact still ho hq hl hd rfl
  | delivered _ => cases he
  | deliveryDrained _ _ => cases he
  | deliveryFailed _ _ _ => cases he
  | @turnQuiet record result _ _ =>
    exact turn_feed hi hx (hb.ended rfl) hc rfl rfl (turnDone_delivery x.state result) rfl hb.front.1 hb.front.2
      hb.applied
  | @turnPublished record result pending _ _ _ =>
    exact turn_feed hi hx (hb.ended rfl) hc rfl rfl (turnDone_delivery x.state result) (by simp; rfl) hb.front.1
      hb.front.2 hb.applied
  | @turnSnapshot record result pending src _ _ _ _ =>
    exact turn_feed hi hx (hb.ended rfl) hc rfl rfl (turnDone_delivery x.state result) (by simp; rfl) hb.front.1
      hb.front.2 hb.applied
  | readyUploaded _ hs =>
    refine still rfl rfl rfl rfl ?_
    unfold Event.completesSnapshot at hs
    split at hs <;> first | rfl | cases hs
  | terminalUploaded _ => exact still rfl rfl rfl rfl rfl
  | terminalUploadFailed _ _ => exact still rfl rfl rfl rfl rfl
  | cleanupUploaded _ _ => exact still rfl rfl rfl rfl rfl
  | cleanupUploadFailed _ _ hf => cases hf <;> exact still rfl rfl rfl rfl rfl
  | fatalUploaded _ hs =>
    refine still rfl rfl rfl rfl ?_
    unfold Event.completesSnapshot at hs
    split at hs <;> first | rfl | cases hs
  | fatalCleaning _ _ hs =>
    refine still rfl rfl rfl rfl ?_
    unfold Event.completesSnapshot at hs
    split at hs <;> first | rfl | cases hs
  | retried _ _ _ => exact still rfl rfl rfl rfl rfl
  | retryLapsed _ _ => exact still rfl rfl rfl rfl rfl
  | cleanedFatal _ _ => exact still rfl rfl rfl rfl rfl
  | cleaned _ _ =>
    obtain ⟨hi', hk⟩ := hi.leave hc rfl rfl rfl
    exact ⟨gone, hi', hk, rfl, by simp [Event.applied]⟩
  | cleanupFailed _ hf => cases hf <;> exact still rfl rfl rfl rfl rfl
  | invariantFailed hd =>
    obtain ⟨ho, hq, hl, hd⟩ := dispatch hd
    exact still ho hq hl hd rfl

/-- A completed delivery is at the front of the queue, so the worker takes its report. -/
theorem delivered_feed (hdist : Distinct offered) (hi : FeedInv offered x gone) {d : Delivery}
    (hd : x.delivery = some d) (hr : d.rest = []) (hx : x.state.phase ≠ .exited) {info : Option Json}
    (h : CoreStep x.state (.inputsDelivered d.headSequence d.out info) os t) :
    ∃ gone', FeedInv offered (({ x with delivery := none } : Feed).after os t) gone' ∧
      FeedKeeps x (({ x with delivery := none } : Feed).after os t) ∧
      Pending (({ x with delivery := none } : Feed).after os t) ∧
      ∀ o ∈ d.out, o.inputId ∈ (({ x with delivery := none } : Feed).after os t).consumed := by
  have hdel := hi.delivering d hd
  have hbatch : d.batch = d.passed := by simp [Delivery.batch, hr]
  have hids : d.out.map (·.inputId) = d.batch.map (·.inputId) := by
    simpa [Function.comp_def, hbatch] using congrArg (List.map Prod.fst) hdel.out
  have hseqs : d.out.map (·.sequence) = d.batch.map (·.sequence) := by
    simpa [Function.comp_def, hbatch] using congrArg (List.map Prod.snd) hdel.out
  obtain hex | ⟨⟨q, hq⟩, hdh, hhead, hord, hav⟩ := hdel.front
  · exact absurd hex hx
  have hmatch : deliveryMatches x.state d.headSequence = true := by
    have hne := hdel.batch_ne hx
    cases hb : d.batch with
    | nil => exact absurd hb hne
    | cons i rest =>
      rw [hb] at hhead hq
      simp only [List.head?_cons, Option.map_some, Option.some.injEq] at hhead
      simp [deliveryMatches, hdh, ← hq, hhead]
  cases h with
  | exited h => exact absurd h hx
  | thrown _ h => cases h
  | ignored _ hg _ =>
    rw [Ignored, hmatch] at hg
    cases hg
  | @handled _ m os' _ _ hh ha =>
    have hc := handled_carries hi.fits hx hh
    cases hh with
    | stopped he _ => cases he
    | operationDrained _ he => rcases he with ⟨_, _, _, _, _, he⟩ | ⟨_, _, _, _, he⟩ | ⟨_, _, _, he⟩ <;> cases he
    | readyUploaded _ he => cases he
    | fatalUploaded _ he => cases he
    | fatalCleaning _ _ he => cases he
    | delivered _ =>
      have hgo : ¬((x.state.deliveryHeadSequence != some d.headSequence ||
          x.state.inputQueue.head?.map (·.sequence) != some d.headSequence) = true) := by
        simpa [deliveryMatches] using hmatch
      have hid := queue_ids hdist hi
      rw [← hq] at hid
      rw [onInputsDelivered, if_neg hgo] at hc ha ⊢
      obtain ⟨hi', hk⟩ := hi.complete hd hx hq.symm hc
        (by simp only [hids, ← hq]; exact filter_front hid)
        (by simp only [hseqs]; rfl) rfl
      obtain ⟨gone', hi'', hk', hp⟩ := advanced_feed hdist ha _ _ rfl hi' (by rintro _ ⟨⟩)
      have hfeeds : feeds (d.out.map fun o => inputConsumedFact o.inputId o.sequence (.delivered o.deliveryMode) info) =
          (d.batch.map (·.inputId)).map .consumed := by
        rw [← hids]
        simp [feeds, List.filterMap_map, Function.comp_def, inputConsumedFact, Output.feed?]
      rw [after_append _ _ os' _ t, after_consumed _ _ hfeeds]
      refine ⟨gone', hi'', hk.trans hk', hp, fun o ho => hk'.consumed.subset (List.mem_append_right _ ?_)⟩
      rw [← hids]
      exact List.mem_map_of_mem ho

/-- A failed delivery that has called Pi leaves a worker that hands nothing over. -/
theorem failed_feed (hdist : Distinct offered) (hi : FeedInv offered x gone) {d : Delivery}
    (hd : x.delivery = some d) (hx : x.state.phase ≠ .exited) (hok : d.passed = [] ∨ retries x.state = false)
    {error : Thrown} (h : CoreStep x.state (.inputDeliveryFailed d.headSequence error) os t) :
    ∃ gone', FeedInv offered (({ x with delivery := none } : Feed).after os t) gone' ∧
      FeedKeeps x (({ x with delivery := none } : Feed).after os t) ∧
      Pending (({ x with delivery := none } : Feed).after os t) := by
  obtain hex | ⟨_, hdh, _, _, hav⟩ := (hi.delivering d hd).front
  · exact absurd hex hx
  cases h with
  | exited h => exact absurd h hx
  | thrown _ h => cases h
  | ignored _ hg _ => exact absurd hdh hg
  | @handled _ m os' _ _ hh ha =>
    have hc := handled_carries hi.fits hx hh
    have finish : ∀ {os}, feeds os = [] → m.inputQueue = x.state.inputQueue →
        m.lastSequenceConsumed = x.state.lastSequenceConsumed → (m.phase ≠ .exited → m.deliveryHeadSequence = none) →
        d.passed = [] ∨ Spoiled m → ∃ gone', FeedInv offered (({ x with delivery := none } : Feed).after (os ++ os') t) gone' ∧
          FeedKeeps x (({ x with delivery := none } : Feed).after (os ++ os') t) ∧
          Pending (({ x with delivery := none } : Feed).after (os ++ os') t) := by
      intro os ho hq hl hdh hs
      obtain ⟨hi', hk⟩ := hi.drop hd hc hq hl hdh hs
      obtain ⟨gone', hi'', hk', hp⟩ := advanced_feed hdist ha _ _ rfl hi' (by rintro _ ⟨⟩)
      rw [after_append _ _ os' m t, after_quiet _ m ho]
      exact ⟨gone', hi'', hk.trans hk', hp⟩
    cases hh with
    | stopped he _ => cases he
    | operationDrained _ he => rcases he with ⟨_, _, _, _, _, he⟩ | ⟨_, _, _, _, he⟩ | ⟨_, _, _, he⟩ <;> cases he
    | readyUploaded _ he => cases he
    | fatalUploaded _ he => cases he
    | fatalCleaning _ _ he => cases he
    | deliveryDrained _ hp =>
      exact finish rfl rfl rfl (fun _ => rfl) (.inr (.inl (by simp [hp, Phase.ending, Phase.stopping])))
    | deliveryFailed _ _ hdis =>
      cases hdis with
      | parked hpark =>
        refine finish rfl rfl rfl (fun _ => rfl) ?_
        rcases hok with hok | hok
        · exact .inl hok
        · -- it parks, so nothing but its end or its taint keeps it from retrying
          have hpark : parks (failureContext x.state) = true := hpark
          simp only [retries, hpark, Bool.and_true, Bool.and_eq_false_iff, Bool.not_eq_false'] at hok
          rcases hok with hok | hok
          · exact .inr (.inl hok)
          · rcases hav with hav | hav
            · exact .inr (.inl hav)
            · have hb := session_of_llm hi.fits (llm_of_piAvailable hav)
              exact .inr (.inr (.inl ⟨hb, hok⟩))
      | fatal _ hf =>
        cases hf with
        | @snapshot src fatal _ _ =>
          refine finish rfl rfl rfl (fun _ => rfl) (.inr ?_)
          rcases hav with hav | hav
          · exact .inl hav
          · exact .inr (.inr ⟨⟨fatal, _, rfl⟩, llm_of_piAvailable hav⟩)
        | exit _ =>
          exact finish rfl rfl rfl (fun hne => absurd rfl hne) (.inr (.inl (ending_exited rfl)))

/-- What one step does: the invariant, what it keeps, and what it reports. -/
structure FeedKept (offered : InputItem → Prop) (x : Feed) (fe : FeedEvent) (y : Feed) : Prop where
  inv : ∃ gone, FeedInv offered y gone
  pending : Pending y
  keeps : FeedKeeps x y
  delivered : x.state.phase ≠ .exited → ∀ headSequence out info,
    x.reaches fe = some (.inputsDelivered headSequence out info) → ∀ o ∈ out, o.inputId ∈ y.consumed
  applied : ∀ record result, x.reaches fe = some (.turnCompleted record result) → x.state.phase ≠ .exited →
    matchesTurn x.state record = true → ¬Throws x.state (.turnCompleted record result) →
    ∀ a ∈ result.appliedTargetedInputs, a.inputId ∈ y.consumed

theorem FeedInv.untargeted (h : FeedInv offered x gone) : FeedInv offered { x with targeted := none } gone := by
  refine ⟨h.fits, h.inbox, h.consumed, h.called, h.increasing, fun d hd => ?_, h.idle, h.settled, by simp⟩
  obtain ⟨h1, h2, h3, h4, h5⟩ := h.delivering d hd
  exact ⟨h1, h2, h3, h4, h5⟩

theorem FeedKeeps.of_state {x' y : Feed} (h : FeedKeeps x' y) (hs : x'.state = x.state) (hc : x'.consumed = x.consumed) :
    FeedKeeps x y := ⟨hc ▸ h.consumed, hs ▸ h.queue, hs ▸ h.exited⟩

/-- An event of the worker itself. -/
theorem worker_feed (hdist : Distinct offered) (hi : FeedInv offered x gone) (hp : Pending x)
    (had : Feed.admits offered x (.worker e)) (hok : x.orderly (.worker e) = true)
    (h : CoreStep x.state e os t) : FeedKept offered x (.worker e) ((x.pi (.worker e)).after os t) := by
  obtain ⟨hdel, hvalid, hend, happ⟩ := had
  have hpi : ∃ x', x.pi (.worker e) = x' ∧ FeedInv offered x' gone ∧ Pending x' ∧ x'.state = x.state ∧
      x'.consumed = x.consumed ∧ x'.delivery = x.delivery ∧ (e.endsTurn = true → x'.targeted = none) ∧
      (e.inputs ≠ [] → x'.inFlight = x.inFlight) := by
    cases he : e.endsTurn with
    | true =>
      refine ⟨{ x with targeted := none }, by simp [Feed.pi, he], hi.untargeted, hp, rfl, rfl, rfl, fun _ => rfl,
        fun hne => ?_⟩
      cases e <;> first | exact absurd rfl hne | cases he
    | false => exact ⟨x, by simp [Feed.pi, he], hi, hp, rfl, rfl, rfl, by simp, fun _ => rfl⟩
  obtain ⟨x', hx', hi', hp', hs, hcons, hdv, ht, hfl⟩ := hpi
  rw [hx']
  have hnodel : ∀ headSequence out info, x.reaches (.worker e) ≠ some (.inputsDelivered headSequence out info) := by
    intro headSequence out info he
    cases he
    cases hdel
  rw [← hs] at h
  have quiet : FeedKeeps x x' := (FeedKeeps.refl x').of_state hs hcons
  cases h with
  | exited hex =>
    exact ⟨⟨gone, hi'⟩, hp', quiet, fun _ _ _ _ he => absurd he (hnodel _ _ _), fun _ _ _ hne => absurd (hs ▸ hex) hne⟩
  | thrown _ hth =>
    refine ⟨⟨gone, hi'⟩, hp', quiet, fun _ _ _ _ he => absurd he (hnodel _ _ _), fun record result he _ _ hno => ?_⟩
    cases he
    exact absurd (hs ▸ hth) hno
  | ignored _ hg ha =>
    obtain ⟨gone', hi'', hk, hp''⟩ := advanced_feed hdist ha x' gone rfl hi' hp'
    refine ⟨⟨gone', hi''⟩, hp'', hk.of_state hs hcons, fun _ _ _ _ he => absurd he (hnodel _ _ _),
      fun record result he _ hm => ?_⟩
    cases he
    rw [Ignored, hs, hm] at hg
    cases hg
  | @handled os m os' _ hx hh ha =>
    -- what an execution applied is at the front of the queue
    have hts : ∃ ts, (ts <+: x'.state.inputQueue ∧ ∀ i ∈ ts, i.targeted = true) ∧
        e.applied.map (fun a => (a.inputId, a.sequence)) <+: ts.map fun i => (i.inputId, i.sequence) := by
      cases hte : e.endsTurn with
      | true =>
        obtain ⟨ts, hts⟩ := Option.ne_none_iff_exists'.1 (hend hte)
        rw [hts] at happ
        rcases hi.applying ts hts with hex | hf
        · rw [hs] at hx
          exact absurd hex hx
        · exact ⟨ts, hs ▸ hf, happ⟩
      | false =>
        have : e.applied = [] := by cases e <;> first | rfl | cases hte
        exact ⟨[], ⟨List.nil_prefix, by simp⟩, by simp [this]⟩
    obtain ⟨ts, hfront, hap⟩ := hts
    have hlate : ∀ i ∈ e.inputs, x'.state.lastSequenceConsumed < i.sequence →
        i ∈ x'.state.inputQueue ∨ ∀ j ∈ x'.inFlight, j.sequence < i.sequence := by
      intro i hi hlt
      rw [hfl (List.ne_nil_of_mem hi)]
      rw [hs] at hlt ⊢
      have hall := List.all_eq_true.1 hok i hi
      simp only [Bool.or_eq_true, decide_eq_true_eq, List.contains_eq_mem, List.all_eq_true] at hall
      rcases hall with (hle | hmem) | hlt'
      · omega
      · exact .inl hmem
      · exact .inr hlt'
    obtain ⟨gone1, hi1, hk1, hd1, ha1⟩ := handled_feed hdist hh hi' hx hdel ⟨hvalid, hlate, hfront, hap, ht⟩
    have hp1 : Pending (x'.after os m) := by
      intro d hd
      rw [hd1] at hd
      exact hp' d hd
    have hst : (x'.after os m).state = m := by
      unfold Feed.after
      exact foldl_absorb_keeps_state _ _
    obtain ⟨gone2, hi2, hk2, hp2⟩ := advanced_feed hdist ha _ gone1 hst hi1 hp1
    rw [after_append x' os os' m t]
    refine ⟨⟨gone2, hi2⟩, hp2, (hk1.trans hk2).of_state hs hcons, fun _ _ _ _ he => absurd he (hnodel _ _ _),
      fun record result he _ _ _ a hmem => ?_⟩
    cases he
    exact hk2.consumed.subset (ha1 a hmem)

/-- A step of the delivery in flight, and what the worker makes of it. -/
theorem coreFeedMove_kept {fe : FeedEvent} {y : Feed} (hdist : Distinct offered) (hi : FeedInv offered x gone)
    (hp : Pending x) (had : Feed.admits offered x fe) (hok : x.orderly fe = true) (h : CoreFeedMove x fe os y) :
    FeedKept offered x fe y := by
  have exits : ∀ {x' : Feed} {d : Delivery} {event : Event} {os : List Output} {t : State}, FeedInv offered x' gone →
      x'.delivery = some d → x'.state.phase = .exited → CoreStep x'.state event os t →
      FeedInv offered (({ x' with delivery := none } : Feed).after os t) gone ∧
        FeedKeeps x' (({ x' with delivery := none } : Feed).after os t) ∧
        Pending (({ x' with delivery := none } : Feed).after os t) := by
    intro x' d event os t hi' hd hx hst
    obtain ⟨rfl, rfl⟩ := coreStep_exited hx hst
    obtain ⟨hi'', hk⟩ := hi'.drop hd ⟨hi'.fits, id, id, id⟩ rfl rfl (fun hne => absurd hx hne)
      (.inr (.inl (ending_exited hx)))
    exact ⟨hi'', hk, by rintro _ ⟨⟩⟩
  cases fe with
  | worker e =>
    obtain ⟨hst, hy⟩ := h
    rw [hy]
    exact worker_feed hdist hi hp had hok hst
  | noHandle error =>
    obtain ⟨d, hd, hpass⟩ := (Option.any_eq_true _ _).1 had
    have hpass : d.passed = [] := by simpa using hpass
    have hr : x.reaches (.noHandle error) = some (.inputDeliveryFailed d.headSequence error) := by
      simp [Feed.reaches, hd]
    rw [CoreFeedMove, hr] at h
    obtain ⟨hst, hy⟩ := h
    have hpi : x.pi (.noHandle error) = { x with delivery := none } := rfl
    rw [hy, hpi]
    by_cases hx : x.state.phase = .exited
    · obtain ⟨hi', hk, hp'⟩ := exits hi hd hx hst
      exact ⟨⟨gone, hi'⟩, hp', hk, fun hne => absurd hx hne, fun _ _ _ hne => absurd hx hne⟩
    · obtain ⟨gone', hi', hk, hp'⟩ := failed_feed hdist hi hd hx (.inl hpass) hst
      refine ⟨⟨gone', hi'⟩, hp', hk, fun _ _ _ _ he => ?_, fun _ _ he => ?_⟩ <;>
      · rw [hr] at he
        cases he
  | piCall result =>
    obtain ⟨d, hd⟩ := Option.ne_none_iff_exists'.1 had
    obtain ⟨input, rest, hrest⟩ := List.exists_cons_of_ne_nil (hp d hd)
    have hpassed := hi.pass hd hrest (d.mode input)
    -- the call itself, with the delivery still in flight
    have hcall : FeedKeeps x { x with calls := x.calls ++ [⟨input, d.mode input⟩], delivery := some (d.pass input rest) } :=
      ⟨List.prefix_refl _, fun _ h => .inl h, id⟩
    cases result with
    | error error =>
      have hr : x.reaches (.piCall (.error error)) = some (.inputDeliveryFailed d.headSequence error) := by
        simp [Feed.reaches, hd]
      rw [CoreFeedMove, hr] at h
      obtain ⟨hst, hy⟩ := h
      have hpi : x.pi (.piCall (.error error)) =
          { x with calls := x.calls ++ [⟨input, d.mode input⟩], delivery := none } := by
        simp [Feed.pi, hd, hrest]
      rw [hy, hpi]
      by_cases hx : x.state.phase = .exited
      · obtain ⟨hi', hk, hp'⟩ := exits hpassed rfl hx hst
        exact ⟨⟨gone, hi'⟩, hp', hcall.trans hk, fun hne => absurd hx hne, fun _ _ _ hne => absurd hx hne⟩
      · have hno : retries x.state = false := by simpa [Feed.orderly] using hok
        obtain ⟨gone', hi', hk, hp'⟩ := failed_feed hdist hpassed rfl hx (.inr hno) hst
        refine ⟨⟨gone', hi'⟩, hp', hcall.trans hk, fun _ _ _ _ he => ?_, fun _ _ he => ?_⟩ <;>
        · rw [hr] at he
          cases he
    | ok info =>
      cases rest with
      | cons next rest =>
        -- Pi took the input and more are left
        have hr : x.reaches (.piCall (.ok info)) = none := by simp [Feed.reaches, hd, hrest]
        rw [CoreFeedMove, hr] at h
        obtain ⟨rfl, rfl⟩ := h
        have hpi : x.pi (.piCall (.ok info)) =
            { x with
              calls := x.calls ++ [⟨input, d.mode input⟩]
              delivery := some (d.pass input (next :: rest)) } := by
          simp [Feed.pi, hd, hrest]
        rw [hpi]
        refine ⟨⟨gone, hpassed⟩, by rintro _ ⟨⟩; simp [Delivery.pass], hcall, fun _ _ _ _ he => ?_, fun _ _ he => ?_⟩ <;>
        · rw [hr] at he
          cases he
      | nil =>
        have hr : x.reaches (.piCall (.ok info)) =
            some (.inputsDelivered d.headSequence (d.pass input []).out info) := by
          simp [Feed.reaches, hd, hrest]
        rw [CoreFeedMove, hr] at h
        obtain ⟨hst, hy⟩ := h
        have hpi : x.pi (.piCall (.ok info)) =
            { x with calls := x.calls ++ [⟨input, d.mode input⟩], delivery := none } := by
          simp [Feed.pi, hd, hrest]
        rw [hy, hpi]
        by_cases hx : x.state.phase = .exited
        · obtain ⟨hi', hk, hp'⟩ := exits hpassed rfl hx hst
          exact ⟨⟨gone, hi'⟩, hp', hcall.trans hk, fun hne => absurd hx hne, fun _ _ _ hne => absurd hx hne⟩
        · obtain ⟨gone', hi', hk, hp', hout⟩ := delivered_feed hdist hpassed rfl rfl hx hst
          refine ⟨⟨gone', hi'⟩, hp', hcall.trans hk, fun _ _ _ _ he => ?_, fun _ _ he => ?_⟩
          · rw [hr] at he
            cases he
            exact hout
          · rw [hr] at he
            cases he

end

/-! ## The result -/

/-- Every input reaches Pi at most once, in order, and is reported at most once;
no step drops a queued input that is not reported, unless `exits` allows it to a
worker that exits; and the inputs of a completed delivery, and those a turn
applied, are reported unless the turn overruns a fatal snapshot. -/
structure InputsSafe (offered : InputItem → Prop) (exits : Bool) (ok : Feed → FeedEvent → Bool) (x : Feed) : Prop where
  passedOnce : (x.calls.map (·.input.inputId)).Nodup
  inOrder : (x.calls.map (·.input.sequence)).Pairwise (· < ·)
  reportedOnce : x.consumed.Nodup
  kept : ∀ fe os y, FeedStep offered x fe os y → ok x fe = true → ∀ i ∈ x.state.inputQueue,
    i ∈ y.state.inputQueue ∨ i.inputId ∈ y.consumed ∨ exits = true ∧ y.state.phase = .exited
  delivered : ∀ fe os y, FeedStep offered x fe os y → ok x fe = true → x.state.phase ≠ .exited →
    ∀ headSequence out info, x.reaches fe = some (.inputsDelivered headSequence out info) →
      ∀ o ∈ out, o.inputId ∈ y.consumed
  applied : ∀ fe os y, FeedStep offered x fe os y → ok x fe = true → x.state.phase ≠ .exited →
    ∀ record result, x.reaches fe = some (.turnCompleted record result) → matchesTurn x.state record = true →
      overrunsFatal x.state (.turnCompleted record result) = false →
      ∀ a ∈ result.appliedTargetedInputs, a.inputId ∈ y.consumed

/-- The orderly worker with its deliveries. -/
abbrev OrderlyStep (offered : InputItem → Prop) : Step Feed FeedEvent Output :=
  Guard (FeedStep offered) fun x e => x.orderly e = true

theorem orderly_core (x : Feed) (e : FeedEvent) : x.core.orderly e = x.orderly e := by
  cases e with
  | piCall result => cases result <;> rfl
  | _ => rfl

theorem admits_core {offered : InputItem → Prop} {x : Feed} {e : FeedEvent} (h : Feed.admits offered x e) :
    Feed.admits offered x.core e := by
  cases e <;> exact h

theorem feedInv_init (offered : InputItem → Prop) : FeedInv offered Feed.init.core [] where
  fits := init_fits
  inbox := Ordered.empty
  consumed := rfl
  called := by simp [Feed.init, Feed.core]
  increasing := .nil
  delivering := by simp [Feed.init, Feed.core]
  idle := fun _ _ => rfl
  settled := by simp [Feed.init, Feed.core]
  applying := by simp [Feed.init, Feed.core]

theorem orderlyStep_kept {offered : InputItem → Prop} (hdist : Distinct offered) {x y : Feed} {fe : FeedEvent}
    {os : List Output} (hi : ∃ gone, FeedInv offered x.core gone) (hp : Pending x.core)
    (h : OrderlyStep offered x fe os y) : FeedKept offered x.core fe y.core := by
  obtain ⟨⟨hst, had⟩, hok⟩ := h
  obtain ⟨gone, hi⟩ := hi
  exact coreFeedMove_kept hdist hi hp (admits_core had) ((orderly_core x fe).trans hok) (feedMove_core hst)

/-- In every orderly run, Pi gets every input at most once and in order, and
every input that is delivered, ignored or applied is reported once and only
then leaves the queue, until the worker exits. -/
theorem inputs_safe {offered : InputItem → Prop} (hdist : Distinct offered) {h : Hist FeedEvent Output} {x : Feed}
    (hr : Run (OrderlyStep offered) Feed.init h x) : InputsSafe offered true Feed.orderly x := by
  have hinv : (∃ gone, FeedInv offered x.core gone) ∧ Pending x.core := by
    refine hr.inv (fun x => (∃ gone, FeedInv offered x.core gone) ∧ Pending x.core)
      ⟨⟨[], feedInv_init offered⟩, by simp [Pending, Feed.init, Feed.core]⟩ fun a fe os b hi hst => ?_
    have hk := orderlyStep_kept hdist hi.1 hi.2 hst
    exact ⟨hk.inv, hk.pending⟩
  have hstep : ∀ {fe os y}, FeedStep offered x fe os y → x.orderly fe = true → FeedKept offered x.core fe y.core :=
    fun hst hok => orderlyStep_kept hdist hinv.1 hinv.2 ⟨hst, hok⟩
  obtain ⟨gone, hi⟩ := hinv.1
  refine ⟨?_, List.pairwise_map.2 hi.increasing, ?_, fun fe os y hst hok i hmem => ?_, fun fe os y hst hok => ?_,
    fun fe os y hst hok hx record result he hm hover => ?_⟩
  · have hseq : (x.calls.map (·.input.sequence)).Nodup := (List.pairwise_map.2 hi.increasing).imp Nat.ne_of_lt
    refine List.Nodup.map_on (fun c hc c' hc' he => ?_) hi.increasing.nodup
    have := hdist.byId _ _ (hi.called c hc) (hi.called c' hc') he
    exact List.inj_on_of_nodup_map hseq hc hc' (congrArg InputItem.sequence this)
  · have hc : x.consumed = gone.map (·.inputId) := hi.consumed
    rw [hc]
    exact hi.inbox.once.map_on fun i hi' j hj he => hdist.byId i j (hi.inbox.goneValid i hi') (hi.inbox.goneValid j hj) he
  · rcases (hstep hst hok).keeps.queue i hmem with h | h | h
    · exact .inl h
    · exact .inr (.inl h)
    · exact .inr (.inr ⟨rfl, h⟩)
  · exact (hstep hst hok).delivered
  · refine (hstep hst hok).applied record result he hx hm fun hthrows => ?_
    obtain ⟨_, hr, hs, hn⟩ := hthrows
    refine hn ?_
    exact executing_unpublished hi.fits ((overrunsFatal_core _ _).trans hover) hm (by rintro h; simp [h] at hs) hr

/-- An operator input, for the examples. -/
def demoInput (id : String) (sequence : Nat) : InputItem where
  inputId := id
  sequence := sequence
  source := "operator"
  kind := "text"
  target := none
  bodyMarkdown := id

/-- A batch of one input. -/
def demoBatch (item : InputItem) : FeedEvent := .worker (.serverMessage (.inputBatch [⟨item, "now"⟩]))

/-- The inputs of the examples. -/
def demoInputs : List InputItem := [demoInput "first" 1, demoInput "second" 2]

theorem demoInputs_distinct : Distinct (· ∈ demoInputs) := by
  constructor
  · intro a b ha hb
    simp only [demoInputs, List.mem_cons, List.not_mem_nil, or_false] at ha hb
    rcases ha with rfl | rfl <;> rcases hb with rfl | rfl <;> decide
  · intro a b ha hb
    simp only [demoInputs, List.mem_cons, List.not_mem_nil, or_false] at ha hb
    rcases ha with rfl | rfl <;> rcases hb with rfl | rfl <;> decide

/-- Two inputs reach an executing turn; one is sent twice. -/
def demoFed : List FeedEvent :=
  (demoExecuting (.llm false none) .active).map .worker ++
    [demoBatch (demoInput "first" 1), demoBatch (demoInput "second" 2), demoBatch (demoInput "first" 1),
      .piCall (.ok none), .piCall (.ok none)]

theorem inputs_safe_demo :
    InputsSafe (· ∈ demoInputs) true Feed.orderly (demoFed.foldl Feed.next Feed.init) :=
  inputs_safe demoInputs_distinct (feed_run_guarded (· ∈ demoInputs) Feed.orderly demoFed (by decide))

/-- A worker stopped with an input still queued: its cleanup runs. -/
def demoStopped : List FeedEvent :=
  (demoReady (.llm false none) .active).map .worker ++
    [demoBatch (demoInput "first" 1), .worker (.stopRequested "operator" true),
      .worker (.snapshotSucceeded .beforeCleanupCompleted none)]

/-- A worker that exits after its cleanup drops what is still queued. -/
theorem inputs_safe_fails :
    ¬∀ offered, Distinct offered → ∀ h x, Run (FeedStep offered) Feed.init h x →
      InputsSafe offered false (fun _ _ => true) x := by
  intro H
  have hr := (feed_run_guarded (· ∈ demoInputs) (fun _ _ => true) demoStopped (by decide)).of_guard
  have hs := (H _ demoInputs_distinct _ _ hr).kept (.worker .cleanupSucceeded) _ _
    ⟨feed_moves _ _, by decide⟩ rfl (demoInput "first" 1) (by decide)
  revert hs
  decide

end Leitwerk.Worker
