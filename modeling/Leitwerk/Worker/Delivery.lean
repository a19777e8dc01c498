import Leitwerk.Worker.Publication
import Leitwerk.Lib.Inbox
/-!
# The worker and the inputs it hands to Pi

`Feed` is the worker with what its driver does for inputs: the `deliverBatch`
call in flight, one await at a time, and the targeted inputs of the execution
in flight. It also records the calls Pi has received and the inputs reported as
consumed. A delivery ends in the completion event of its command; every other
event may arrive at any time.

`finish_deliverBatch` ties the awaits to `deliverBatch`: taken one after the
other they make its calls and end in its result.
-/

namespace Leitwerk.Worker

open Runs Inbox

/-! ## One await of `deliverBatch` -/

/-- A `deliverBatch` call in flight: the inputs Pi has taken, those left, and `out`. -/
structure Delivery where
  headSequence : Nat
  hasActiveTurn : Bool
  passed : List InputItem
  rest : List InputItem
  out : List DeliveredInput
  deriving DecidableEq

/-- The call of a `deliver_inputs` command. -/
def Delivery.begin (headSequence : Nat) (inputs : List InputItem) (hasActiveTurn : Bool) : Delivery :=
  ⟨headSequence, hasActiveTurn, [], inputs, []⟩

/-- All inputs of the batch. -/
def Delivery.batch (d : Delivery) : List InputItem := d.passed ++ d.rest

/-- How the next input is passed. -/
def Delivery.mode (d : Delivery) (input : InputItem) : InputDeliveryMode :=
  if d.passed.isEmpty then classifyDeliveryMode input d.hasActiveTurn else .steer

/-- The batch after Pi took the next input. -/
def Delivery.pass (d : Delivery) (input : InputItem) (rest : List InputItem) : Delivery :=
  { d with
    passed := d.passed ++ [input]
    rest := rest
    out := d.out ++ [⟨input.inputId, input.sequence, d.mode input⟩] }

/-- The awaits that are left, one after the other. -/
def Delivery.finish (session : PiSession) (d : Delivery) : List InputItem → BatchDelivery
  | [] => ⟨[], .ok d.out⟩
  | input :: rest =>
    match session d.passed.length with
    | .error e => ⟨[⟨input, d.mode input⟩], .error e⟩
    | .ok () =>
      let later := (d.pass input rest).finish session rest
      ⟨⟨input, d.mode input⟩ :: later.calls, later.result⟩

theorem finish_deliverFrom (session : PiSession) (d : Delivery) (rest : List InputItem) :
    d.finish session rest =
      ⟨(deliverFrom session d.hasActiveTurn d.passed.length rest).calls,
        (deliverFrom session d.hasActiveTurn d.passed.length rest).result.map (d.out ++ ·)⟩ := by
  induction rest generalizing d with
  | nil => simp [Delivery.finish, deliverFrom, Except.map]
  | cons input rest ih =>
    have hmode : (if d.passed.length = 0 then classifyDeliveryMode input d.hasActiveTurn else .steer) =
        d.mode input := by
      cases h : d.passed <;> simp [Delivery.mode, h]
    simp only [Delivery.finish, deliverFrom, hmode]
    cases hs : session d.passed.length with
    | error e => rfl
    | ok _ =>
      simp only [ih, Delivery.pass, List.length_append, List.length_singleton]
      cases (deliverFrom session d.hasActiveTurn (d.passed.length + 1) rest).result with
      | error e => rfl
      | ok out => simp [Except.map]

/-- The awaits of a command are `deliverBatch`. -/
theorem finish_deliverBatch (session : PiSession) (headSequence : Nat) (inputs : List InputItem)
    (hasActiveTurn : Bool) :
    (Delivery.begin headSequence inputs hasActiveTurn).finish session inputs =
      deliverBatch session inputs hasActiveTurn := by
  rw [finish_deliverFrom]
  simp only [Delivery.begin, List.length_nil, deliverBatch]
  cases h : (deliverFrom session hasActiveTurn 0 inputs).result <;> simp [Except.map, ← h]

/-! ## The worker with its deliveries -/

/-- The worker, what its driver has in flight for inputs, the calls Pi has
received and the inputs reported as consumed. A second delivery is never
launched while one is in flight: its command waits for `deliveryHeadSequence`. -/
structure Feed where
  state : State
  delivery : Option Delivery
  targeted : Option (List InputItem)
  calls : List PiCall
  consumed : List String

/-- What can happen next: an event other than a completed delivery, a delivery
that finds no Pi handle, or the end of the next call of the delivery in flight. -/
inductive FeedEvent where
  | worker (event : Event)
  | noHandle (error : Thrown)
  | piCall (result : Except Thrown (Option Json))

/-- The outputs that feed Pi or report an input. -/
inductive FeedOutput where
  | deliver (headSequence : Nat) (inputs : List InputItem) (piTurnActive : Bool)
  | execute (targeted : List InputItem)
  | consumed (inputId : String)
  deriving DecidableEq

/-- What an output does for inputs. -/
def Output.feed? : Output → Option FeedOutput
  | .command (.deliverInputs headSequence inputs active) => some (.deliver headSequence inputs active)
  | .command (.executeTurn _ targeted _) => some (.execute targeted)
  | .fact (.inputConsumed inputId _ _ _) => some (.consumed inputId)
  | _ => none

/-- The outputs for inputs, in order. -/
def feeds (os : List Output) : List FeedOutput := os.filterMap (·.feed?)

/-- The end of an execution. -/
def Event.endsTurn : Event → Bool
  | .turnCompleted _ _ | .turnDefect _ _ => true
  | _ => false

/-- The end of a delivery. -/
def Event.endsDelivery : Event → Bool
  | .inputsDelivered _ _ _ | .inputDeliveryFailed _ _ => true
  | _ => false

/-- The inputs an event brings. -/
def Event.inputs : Event → List InputItem
  | .serverMessage (.inputBatch inputs) => inputs.map inputDeliveryToItem
  | .bootstrapSucceeded _ completion => completion.pendingInputs
  | _ => []

/-- The targeted inputs an event says were applied to the turn. -/
def Event.applied : Event → List AppliedTargetedInput
  | .turnCompleted _ result => result.appliedTargetedInputs
  | _ => []

/-- One output of the worker, carried out. -/
def Feed.absorb (x : Feed) : FeedOutput → Feed
  | .deliver headSequence inputs active => { x with delivery := some (.begin headSequence inputs active) }
  | .execute targeted => { x with targeted := some targeted }
  | .consumed inputId => { x with consumed := x.consumed ++ [inputId] }

/-- The worker in its next state, with its outputs carried out. -/
def Feed.after (x : Feed) (os : List Output) (t : State) : Feed :=
  (feeds os).foldl Feed.absorb { x with state := t }

/-- The event the worker meets. -/
def Feed.reaches (x : Feed) : FeedEvent → Option Event
  | .worker e => some e
  | .noHandle error => x.delivery.map fun d => .inputDeliveryFailed d.headSequence error
  | .piCall result => x.delivery.bind fun d =>
    match result, d.rest with
    | .error error, _ => some (.inputDeliveryFailed d.headSequence error)
    | .ok info, [input] => some (.inputsDelivered d.headSequence (d.pass input []).out info)
    | .ok _, _ => none

/-- What happens before the worker meets the event: an execution or a delivery
ends, or Pi receives a call. -/
def Feed.pi (x : Feed) : FeedEvent → Feed
  | .worker e => if e.endsTurn then { x with targeted := none } else x
  | .noHandle _ => { x with delivery := none }
  | .piCall result =>
    match x.delivery with
    | none => x
    | some d =>
      match d.rest with
      | [] => x
      | input :: rest =>
        let called : Feed := { x with calls := x.calls ++ [⟨input, d.mode input⟩] }
        match result, rest with
        | .ok _, _ :: _ => { called with delivery := some (d.pass input rest) }
        | _, _ => { called with delivery := none }

/-- One step of the worker with its deliveries. -/
def FeedMove : Step Feed FeedEvent Output := fun x e os y =>
  match x.reaches e with
  | some event => WorkerStep x.state event os y.state ∧ y = (x.pi e).after os y.state
  | none => os = [] ∧ y = x.pi e

/-- The same on the core. -/
def CoreFeedMove : Step Feed FeedEvent Output := fun x e os y =>
  match x.reaches e with
  | some event => CoreStep x.state event os y.state ∧ y = (x.pi e).after os y.state
  | none => os = [] ∧ y = x.pi e

/-- A worker that has not started. -/
def Feed.init : Feed := ⟨createInitialWorkerRuntimeState, none, none, [], []⟩

/-- What the driver and its callers promise: a delivery ends by its own calls;
inputs are among the offered ones; an execution ends once, and what it applied
are the first of its targeted inputs. -/
def Feed.admits (offered : InputItem → Prop) (x : Feed) : FeedEvent → Prop
  | .worker e =>
    e.endsDelivery = false ∧ (∀ i ∈ e.inputs, offered i) ∧ (e.endsTurn = true → x.targeted ≠ none) ∧
      e.applied.map (fun a => (a.inputId, a.sequence)) <+:
        (x.targeted.getD []).map fun i => (i.inputId, i.sequence)
  | .noHandle _ => x.delivery.any (·.passed.isEmpty) = true
  | .piCall _ => x.delivery ≠ none

instance (offered : InputItem → Prop) [DecidablePred offered] (x : Feed) (e : FeedEvent) :
    Decidable (Feed.admits offered x e) :=
  match e with
  | .worker _ => inferInstanceAs (Decidable (_ ∧ _ ∧ _ ∧ _))
  | .noHandle _ => inferInstanceAs (Decidable (_ = _))
  | .piCall _ => inferInstanceAs (Decidable (_ ≠ _))

/-- The worker with its deliveries. -/
def FeedStep (offered : InputItem → Prop) : Step Feed FeedEvent Output := Guard FeedMove (Feed.admits offered)

/-- The outputs of the next step. -/
def Feed.outputs (x : Feed) (e : FeedEvent) : List Output :=
  match x.reaches e with
  | some event => (step x.state event).outputs
  | none => []

/-- The next step. -/
def Feed.next (x : Feed) (e : FeedEvent) : Feed :=
  match x.reaches e with
  | some event => (x.pi e).after (step x.state event).outputs (step x.state event).state
  | none => x.pi e

theorem foldl_absorb_keeps_state (x : Feed) (fs : List FeedOutput) : (fs.foldl Feed.absorb x).state = x.state := by
  induction fs generalizing x with
  | nil => rfl
  | cons f fs ih =>
    rw [List.foldl_cons, ih]
    cases f <;> rfl

theorem feed_moves (x : Feed) (e : FeedEvent) : FeedMove x e (x.outputs e) (x.next e) := by
  unfold FeedMove Feed.outputs Feed.next
  split
  · exact ⟨by simp only [Feed.after, foldl_absorb_keeps_state]; rfl, by simp only [Feed.after, foldl_absorb_keeps_state]⟩
  · exact ⟨rfl, rfl⟩

/-- The worker with its deliveries after these steps, each of which meets `ok`. -/
theorem feed_run_guarded (offered : InputItem → Prop) [DecidablePred offered] (ok : Feed → FeedEvent → Bool)
    (es : List FeedEvent)
    (h : allOk Feed.next (fun x e => decide (Feed.admits offered x e) && ok x e) Feed.init es = true) :
    Run (Guard (FeedStep offered) fun x e => ok x e = true) Feed.init (play Feed.next Feed.outputs Feed.init es)
      (es.foldl Feed.next Feed.init) := by
  refine (run_guarded Feed.next Feed.outputs feed_moves h).mono fun x e os y hst => ?_
  obtain ⟨hst, hok⟩ := hst
  rw [Bool.and_eq_true, decide_eq_true_eq] at hok
  exact ⟨⟨hst, hok.1⟩, hok.2⟩

/-! ## The core of a worker with its deliveries -/

/-- The core of the worker, with the same deliveries. -/
def Feed.core (x : Feed) : Feed := { x with state := x.state.core }

theorem feeds_tracked (os : List Output) : feeds (tracked os) = feeds os := by
  refine filterMap_tracked (fun o h => ?_) os
  unfold Output.feed?
  split <;> first | rfl | cases h

theorem reaches_core (x : Feed) (e : FeedEvent) : x.core.reaches e = x.reaches e := by
  cases e <;> rfl

theorem pi_core (x : Feed) (e : FeedEvent) : x.core.pi e = (x.pi e).core := by
  cases e with
  | worker e =>
    simp only [Feed.pi]
    split <;> rfl
  | noHandle error => rfl
  | piCall result =>
    simp only [Feed.pi, Feed.core]
    split
    · rfl
    · split
      · rfl
      · split <;> rfl

theorem foldl_absorb_core (x : Feed) (fs : List FeedOutput) :
    fs.foldl Feed.absorb x.core = (fs.foldl Feed.absorb x).core := by
  induction fs generalizing x with
  | nil => rfl
  | cons f fs ih =>
    have h : x.core.absorb f = (x.absorb f).core := by cases f <;> rfl
    rw [List.foldl_cons, List.foldl_cons, h, ih]

theorem feedMove_core {x y : Feed} {e : FeedEvent} {os : List Output} (h : FeedMove x e os y) :
    CoreFeedMove x.core e (tracked os) y.core := by
  unfold FeedMove at h
  unfold CoreFeedMove
  rw [reaches_core]
  cases hr : x.reaches e with
  | none =>
    rw [hr] at h
    obtain ⟨rfl, rfl⟩ := h
    exact ⟨rfl, (pi_core x e).symm⟩
  | some event =>
    rw [hr] at h
    obtain ⟨hst, hy⟩ := h
    refine ⟨step_core hst, ?_⟩
    calc y.core = ((x.pi e).after os y.state).core := congrArg Feed.core hy
      _ = (x.core.pi e).after (tracked os) y.core.state := by
        unfold Feed.after
        rw [feeds_tracked, pi_core, ← foldl_absorb_core]
        rfl

end Leitwerk.Worker
