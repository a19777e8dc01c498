import Leitwerk.Lib.JsString
import Leitwerk.Lib.Runs
/-!
# The worker's end of the connection

`createWebSocketWorkerIpc` with reconnecting enabled, from `start` until `stop`:
lines wait in a queue while no socket is open and are sent after the token once
one is. What a socket makes of a line and what the connect handler sends is up
to a `World`.
-/

namespace Leitwerk.Ipc.WorkerSocket

open Runs

/-- What `serializeMessage` returns, which is not empty. -/
abbrev Message := {text : JsString // text ≠ []}

/-- A line for the server. The code does not look at `onConnect`, which marks
what the connect handler sends. -/
structure Line where
  text : Message
  onConnect : Bool
  deriving DecidableEq

/-- `readyState`: 0, 1, and 2 or 3. -/
inductive ReadyState
  | connecting | opened | closed
  deriving DecidableEq

/-- What happened so far: a call of `send`, or a call of `socket.send` with the
token or a line, which returned or threw. -/
inductive Entry
  | sent (line : Line)
  | attempt (line : Option Line) (accepted : Bool)
  deriving DecidableEq

/-- The surroundings: whether the n-th `socket.send` returns, whether the socket is
open after it, and what the connect handler sends if it is called then. -/
structure World where
  accepts : Nat → Bool
  staysOpen : Nat → Bool
  connectHandler : Nat → List Message

structure State where
  socket : Option ReadyState := none
  started : Bool := false
  reconnectTimer : Bool := false
  openedOnce : Bool := false
  outbound : List Line := []
  attempts : Nat := 0
  log : List Entry := []
  deriving DecidableEq

/-- What happens to the connection: the calls of `start` and `send`, the events of
the socket, its `readyState` leaving 1 before the event, and the timer. -/
inductive Event
  | start | send (message : Message) | opened | closing | closed (code : Nat) | reconnect
  deriving DecidableEq

/-! ## Sending -/

/-- `sendText`, of the token for `none`. -/
def sendText (w : World) (s : State) (line : Option Line) : State × Bool :=
  if s.socket ≠ some .opened then (s, false)
  else
    ({ s with
        socket := some (if w.staysOpen s.attempts then .opened else .closed)
        attempts := s.attempts + 1
        log := s.log ++ [.attempt line (w.accepts s.attempts)] },
      w.accepts s.attempts)

/-- `send`. -/
def send (w : World) (s : State) (line : Line) : State :=
  let s := { s with log := s.log ++ [.sent line] }
  if s.socket ≠ some .opened then { s with outbound := s.outbound ++ [line] }
  else
    match sendText w s (some line) with
    | (s, true) => s
    | (s, false) => { s with outbound := line :: s.outbound }

/-- The loop of `flushOutbound`, which a line goes on with since it is not empty.
Each round takes one, so as many rounds as there are lines are enough. -/
def drain (w : World) : Nat → State → State
  | 0, s => s
  | rounds + 1, s =>
    match s.outbound with
    | [] => s
    | next :: rest =>
      match sendText w { s with outbound := rest } (some next) with
      | (s, true) => drain w rounds s
      | (s, false) => { s with outbound := next :: s.outbound }

/-- The connect handler, called while a reconnect is flushed. -/
def callConnectHandler (w : World) (s : State) : State :=
  (w.connectHandler s.attempts).foldl (fun s message => send w s { text := message, onConnect := true }) s

/-- `flushOutbound`. -/
def flushOutbound (w : World) (s : State) : State :=
  match sendText w s none with
  | (s, false) => s
  | (s, true) =>
    let s := if s.openedOnce then callConnectHandler w s else s
    let s := { s with openedOnce := true }
    drain w s.outbound.length s

/-! ## Connecting -/

/-- `connect`. -/
def connect (s : State) : State := if s.started then { s with socket := some .connecting } else s

/-- `scheduleReconnect`. -/
def scheduleReconnect (s : State) : State :=
  if s.started = false ∨ s.reconnectTimer then s else { s with reconnectTimer := true }

/-- One event. -/
def next (w : World) (s : State) : Event → State
  | .start => if s.started then s else connect { s with started := true }
  | .send message => send w s { text := message, onConnect := false }
  | .opened => flushOutbound w { s with socket := some .opened }
  | .closing => { s with socket := some .closed }
  | .closed code => if code ≠ 1008 then scheduleReconnect { s with socket := none } else { s with socket := none }
  | .reconnect => connect { s with reconnectTimer := false }

/-- The events that can come: a socket opens once, and without one there is none to close. -/
def possible (s : State) : Event → Bool
  | .start => true
  | .send _ => true
  | .opened => s.socket = some .connecting
  | .closing => s.socket.isSome
  | .closed _ => s.socket.isSome
  | .reconnect => s.reconnectTimer

/-- The steps, whether they are possible or not. -/
def moves (w : World) : Step State Event Unit := fun s e os t => os = [] ∧ t = next w s e

def machine (w : World) : Step State Event Unit := Guard (moves w) fun s e => possible s e = true

/-! ## What was sent and what arrived -/

/-- The lines `send` was called with. -/
def sent (log : List Entry) : List Line :=
  log.filterMap fun
    | .sent line => some line
    | .attempt _ _ => none

/-- The lines the sockets accepted, token aside. -/
def accepted (log : List Entry) : List Line :=
  log.filterMap fun
    | .sent _ => none
    | .attempt line true => line
    | .attempt _ false => none

/-- Whether the last `socket.send` returned. -/
def lastAttempt (log : List Entry) : Option Bool :=
  (log.filterMap fun
    | .sent _ => none
    | .attempt _ accepted => some accepted).getLast?

/-- The lines that are not the connect handler's. -/
def direct (lines : List Line) : List Line := lines.filter fun line => line.onConnect = false

/-- A `send` that finds the socket open finds nothing in the queue. -/
def findsQueueEmpty (s : State) : Event → Bool
  | .send _ => s.socket ≠ some .opened || s.outbound = []
  | _ => true

@[simp] theorem sent_append (l l' : List Entry) : sent (l ++ l') = sent l ++ sent l' := List.filterMap_append

@[simp] theorem accepted_append (l l' : List Entry) : accepted (l ++ l') = accepted l ++ accepted l' :=
  List.filterMap_append

@[simp] theorem direct_append (l l' : List Line) : direct (l ++ l') = direct l ++ direct l' := List.filter_append ..

theorem lastAttempt_attempt (log : List Entry) (line : Option Line) (ok : Bool) :
    lastAttempt (log ++ [.attempt line ok]) = some ok := by
  unfold lastAttempt
  rw [List.filterMap_append]
  simp

/-! ## What a step keeps -/

/-- The lines that arrived, and then those that wait, are those that were sent:
all of them, and those outside of the connect handler in order. -/
structure Ordered (s : State) : Prop where
  order : direct (accepted s.log ++ s.outbound) = direct (sent s.log)
  complete : (accepted s.log ++ s.outbound).Perm (sent s.log)

/-- What an attempt with a line leaves. -/
theorem sendText_spec {w : World} {s t : State} {line : Option Line} {ok : Bool} (h : sendText w s line = (t, ok)) :
    sent t.log = sent s.log ∧ accepted t.log = accepted s.log ++ (if ok then line.toList else []) ∧
      t.outbound = s.outbound ∧ (ok = false → t.socket = some .opened → lastAttempt t.log = some false) := by
  unfold sendText at h
  split at h
  · rename_i hclosed
    cases h
    exact ⟨rfl, by simp, rfl, fun _ hopen => absurd hopen hclosed⟩
  · cases h
    refine ⟨by simp [sent], ?_, rfl, ?_⟩
    · cases hok : w.accepts s.attempts with
      | true => cases line <;> simp [accepted]
      | false => simp [accepted]
    · intro hok _
      rw [lastAttempt_attempt, hok]

theorem Ordered.token {w : World} {s t : State} {ok : Bool} (hs : Ordered s) (h : sendText w s none = (t, ok)) : Ordered t := by
  obtain ⟨hsent, haccepted, houtbound, -⟩ := sendText_spec h
  rw [Option.toList_none, ite_self, List.append_nil] at haccepted
  constructor
  · rw [hsent, haccepted, houtbound]
    exact hs.order
  · rw [hsent, haccepted, houtbound]
    exact hs.complete

/-- A line that is sent at the end keeps the order; one of the connect handler does so anywhere. -/
theorem Ordered.send {w : World} {s : State} {line : Line} (hs : Ordered s)
    (hline : line.onConnect = true ∨ (s.socket = some .opened → s.outbound = [])) : Ordered (send w s line) := by
  have horder := hs.order
  rw [direct_append] at horder
  have hone : sent [Entry.sent line] = [line] := rfl
  have hnone : accepted [Entry.sent line] = [] := rfl
  unfold WorkerSocket.send
  dsimp only
  split
  · constructor
    · rw [sent_append, accepted_append, hone, hnone, List.append_nil, ← List.append_assoc, direct_append, direct_append,
        direct_append, horder]
    · rw [sent_append, accepted_append, hone, hnone, List.append_nil, ← List.append_assoc]
      exact hs.complete.append_right _
  · rename_i hopen
    rw [ne_eq, not_not] at hopen
    -- a line of the handler leaves no trace in the order, any other one finds the queue empty
    have hfront : direct (accepted s.log ++ ([line] ++ s.outbound)) = direct (sent s.log ++ [line]) := by
      rw [direct_append, direct_append, direct_append]
      rcases hline with hhandler | hempty
      · have hdirect : direct [line] = [] := by simp [direct, hhandler]
        rw [hdirect, List.nil_append, List.append_nil, horder]
      · rw [hempty hopen] at horder ⊢
        have hnil : direct [] = [] := rfl
        rw [hnil, List.append_nil] at horder ⊢
        rw [horder]
    have hall : (accepted s.log ++ [line] ++ s.outbound).Perm (sent s.log ++ [line]) := by
      have hswap : (accepted s.log ++ [line] ++ s.outbound).Perm (accepted s.log ++ s.outbound ++ [line]) := by
        rw [List.append_assoc, List.append_assoc]
        exact List.Perm.append_left _ List.perm_append_comm
      exact hswap.trans (hs.complete.append_right _)
    split
    · rename_i t heq
      obtain ⟨hsent, haccepted, houtbound, -⟩ := sendText_spec heq
      rw [if_pos rfl, Option.toList_some, accepted_append, hnone, List.append_nil] at haccepted
      rw [sent_append, hone] at hsent
      constructor
      · rw [haccepted, houtbound, hsent, List.append_assoc]
        exact hfront
      · rw [haccepted, houtbound, hsent]
        exact hall
    · rename_i t heq
      obtain ⟨hsent, haccepted, houtbound, -⟩ := sendText_spec heq
      rw [if_neg (by simp), accepted_append, hnone, List.append_nil, List.append_nil] at haccepted
      rw [sent_append, hone] at hsent
      constructor
      · rw [haccepted, houtbound, hsent]
        exact hfront
      · rw [haccepted, houtbound, hsent]
        rwa [List.append_assoc] at hall

theorem Ordered.drain {w : World} {s : State} (hs : Ordered s) (rounds : Nat) : Ordered (drain w rounds s) := by
  induction rounds generalizing s with
  | zero => exact hs
  | succ rounds ih =>
    unfold WorkerSocket.drain
    split
    · exact hs
    · rename_i next rest hqueue
      have horder := hs.order
      have hcomplete := hs.complete
      rw [hqueue] at horder hcomplete
      split
      · rename_i t heq
        obtain ⟨hsent, haccepted, houtbound, -⟩ := sendText_spec heq
        rw [if_pos rfl, Option.toList_some] at haccepted
        apply ih
        constructor
        · rw [haccepted, houtbound, hsent, List.append_assoc]
          exact horder
        · rw [haccepted, houtbound, hsent, List.append_assoc]
          exact hcomplete
      · rename_i t heq
        obtain ⟨hsent, haccepted, houtbound, -⟩ := sendText_spec heq
        rw [if_neg (by simp), List.append_nil] at haccepted
        constructor
        · rw [haccepted, houtbound, hsent]
          exact horder
        · rw [haccepted, houtbound, hsent]
          exact hcomplete

theorem Ordered.callConnectHandler {w : World} {s : State} (hs : Ordered s) : Ordered (callConnectHandler w s) := by
  unfold WorkerSocket.callConnectHandler
  generalize w.connectHandler s.attempts = messages
  induction messages generalizing s with
  | nil => exact hs
  | cons message messages ih => exact ih (hs.send (.inl rfl))

theorem Ordered.flushOutbound {w : World} {s : State} (hs : Ordered s) : Ordered (flushOutbound w s) := by
  unfold WorkerSocket.flushOutbound
  split
  · rename_i t heq
    exact hs.token heq
  · rename_i t heq
    have ht := hs.token heq
    apply Ordered.drain
    split
    · exact ⟨ht.callConnectHandler.order, ht.callConnectHandler.complete⟩
    · exact ⟨ht.order, ht.complete⟩

theorem Ordered.next {w : World} {s : State} (hs : Ordered s) {e : Event} (he : findsQueueEmpty s e = true) :
    Ordered (next w s e) := by
  have hsocket : ∀ t : State, t.log = s.log → t.outbound = s.outbound → Ordered t := by
    intro t hlog houtbound
    constructor
    · rw [hlog, houtbound]
      exact hs.order
    · rw [hlog, houtbound]
      exact hs.complete
  cases e with
  | start =>
    unfold WorkerSocket.next connect
    dsimp only
    split
    · exact hs
    · split <;> exact hsocket _ rfl rfl
  | send message =>
    apply hs.send
    right
    intro hopen
    simpa [findsQueueEmpty, hopen] using he
  | opened => exact (hsocket { s with socket := some .opened } rfl rfl).flushOutbound
  | closing => exact hsocket _ rfl rfl
  | closed code =>
    unfold WorkerSocket.next scheduleReconnect
    dsimp only
    split
    · split <;> exact hsocket _ rfl rfl
    · exact hsocket _ rfl rfl
  | reconnect =>
    unfold WorkerSocket.next connect
    dsimp only
    split <;> exact hsocket _ rfl rfl

/-! ## What is left in the queue -/

/-- With the socket open, the queue is empty or the last attempt failed. -/
def Drained (s : State) : Prop := s.socket = some .opened → s.outbound = [] ∨ lastAttempt s.log = some false

/-- The rounds of the loop do not run out before the queue is empty or an attempt fails. -/
theorem drained_drain {w : World} {s : State} {rounds : Nat} (h : s.outbound.length ≤ rounds) : Drained (drain w rounds s) := by
  induction rounds generalizing s with
  | zero =>
    intro _
    left
    exact List.length_eq_zero_iff.1 (Nat.le_zero.1 h)
  | succ rounds ih =>
    unfold drain
    split
    · rename_i hqueue
      exact fun _ => .inl hqueue
    · rename_i next rest hqueue
      rw [hqueue, List.length_cons] at h
      split
      · rename_i t heq
        apply ih
        rw [(sendText_spec heq).2.2.1]
        exact Nat.le_of_succ_le_succ h
      · rename_i t heq
        exact fun hopen => .inr ((sendText_spec heq).2.2.2 rfl hopen)

theorem drained_flushOutbound (w : World) (s : State) : Drained (flushOutbound w s) := by
  unfold flushOutbound
  split
  · rename_i t heq
    exact fun hopen => .inr ((sendText_spec heq).2.2.2 rfl hopen)
  · exact drained_drain (le_refl _)

theorem drained_send {w : World} {s : State} {line : Line} (h : s.socket = some .opened → s.outbound = []) :
    Drained (send w s line) := by
  unfold send
  dsimp only
  split
  · rename_i hclosed
    exact fun hopen => absurd hopen hclosed
  · rename_i hopen
    rw [ne_eq, not_not] at hopen
    split
    · rename_i t heq
      intro _
      left
      rw [(sendText_spec heq).2.2.1]
      exact h hopen
    · rename_i t heq
      exact fun hstill => .inr ((sendText_spec heq).2.2.2 rfl hstill)

/-! ## The messages of the steps -/

theorem sent_send (w : World) (s : State) (line : Line) : sent (send w s line).log = sent s.log ++ [line] := by
  have hone : sent [Entry.sent line] = [line] := rfl
  unfold send
  dsimp only
  split
  · rw [sent_append, hone]
  · split
    · rename_i t heq
      rw [(sendText_spec heq).1, sent_append, hone]
    · rename_i t heq
      rw [(sendText_spec heq).1, sent_append, hone]

theorem sent_drain (w : World) (rounds : Nat) (s : State) : sent (drain w rounds s).log = sent s.log := by
  induction rounds generalizing s with
  | zero => rfl
  | succ rounds ih =>
    unfold drain
    split
    · rfl
    · split
      · rename_i t heq
        rw [ih, (sendText_spec heq).1]
      · rename_i t heq
        exact (sendText_spec heq).1

theorem direct_sent_callConnectHandler (w : World) (s : State) :
    direct (sent (callConnectHandler w s).log) = direct (sent s.log) := by
  unfold callConnectHandler
  generalize w.connectHandler s.attempts = messages
  induction messages generalizing s with
  | nil => rfl
  | cons message messages ih =>
    rw [List.foldl_cons, ih, sent_send, direct_append]
    simp [direct]

theorem direct_sent_flushOutbound (w : World) (s : State) :
    direct (sent (flushOutbound w s).log) = direct (sent s.log) := by
  unfold flushOutbound
  split
  · rename_i t heq
    rw [(sendText_spec heq).1]
  · rename_i t heq
    rw [sent_drain]
    split
    · rw [← (sendText_spec heq).1]
      exact direct_sent_callConnectHandler w t
    · rw [← (sendText_spec heq).1]

/-- The message that a step sends. -/
def Event.message : Event → Option Message
  | .send message => some message
  | _ => none

theorem direct_sent_next (w : World) (s : State) (e : Event) :
    (direct (sent (next w s e).log)).map Line.text = (direct (sent s.log)).map Line.text ++ e.message.toList := by
  cases e with
  | send message =>
    unfold next
    rw [sent_send, direct_append, List.map_append]
    rfl
  | opened =>
    unfold next
    rw [direct_sent_flushOutbound]
    simp [Event.message]
  | start =>
    unfold next connect
    dsimp only
    split
    · simp [Event.message]
    · split <;> simp [Event.message]
  | closing => simp [next, Event.message]
  | closed code =>
    unfold next scheduleReconnect
    dsimp only
    split
    · split <;> simp [Event.message]
    · simp [Event.message]
  | reconnect =>
    unfold next connect
    dsimp only
    split <;> simp [Event.message]

/-! ## Runs -/

/-- Whether an event is the opening of a socket or a `send`. -/
def Event.flushes : Event → Bool
  | .opened => true
  | .send _ => true
  | _ => false

/-- What a run has sent outside of the connect handler are the messages of its steps. -/
theorem messages_of_run {w : World} {h : Hist Event Unit} {s : State} (hr : Run (machine w) {} h s) :
    (direct (sent s.log)).map Line.text = (events h).filterMap Event.message := by
  apply hr.hist (fun h s => (direct (sent s.log)).map Line.text = (events h).filterMap Event.message) rfl
  rintro h s e os t ih ⟨⟨rfl, rfl⟩, -⟩
  rw [direct_sent_next, ih, events_snoc, List.filterMap_append]
  cases e <;> rfl

/-- Where every `send` outside of the connect handler that finds the socket open
finds the queue empty: the messages that arrived, and then those that wait, are
in the order in which they were sent, and with the handler's each is there as
often as it was sent; and an open socket has an empty queue after it opened and
after a `send`, unless the last attempt failed. -/
theorem order_kept {w : World} {h : Hist Event Unit} {s : State}
    (hr : Run (Guard (machine w) fun s e => findsQueueEmpty s e = true) {} h s) :
    (direct (accepted s.log ++ s.outbound)).map Line.text = (events h).filterMap Event.message ∧
      (accepted s.log ++ s.outbound).Perm (sent s.log) ∧
      ∀ e ∈ (events h).getLast?, e.flushes = true → s.socket = some .opened →
        s.outbound = [] ∨ lastAttempt s.log = some false := by
  have hordered : Ordered s := by
    apply hr.inv Ordered ⟨rfl, .refl _⟩
    rintro s e os t hs ⟨⟨⟨rfl, rfl⟩, -⟩, he⟩
    exact hs.next he
  refine ⟨?_, hordered.complete, ?_⟩
  · rw [hordered.order]
    exact messages_of_run hr.of_guard
  · -- the last step decides
    cases hr with
    | nil => simp
    | @snoc h t e os s hr hstep =>
      obtain ⟨⟨⟨rfl, rfl⟩, -⟩, he⟩ := hstep
      rw [events_snoc, List.getLast?_concat]
      intro e' he' hflushes
      rw [Option.mem_some_iff] at he'
      subst he'
      cases e with
      | send message =>
        apply drained_send
        intro hopen
        simpa [findsQueueEmpty, hopen] using he
      | opened => exact drained_flushOutbound _ _
      | start => cases hflushes
      | closing => cases hflushes
      | closed code => cases hflushes
      | reconnect => cases hflushes

/-! ## A run that meets the condition, and one that does not -/

def message (u : UInt16) : Message := ⟨[u], by simp⟩

/-- A world in which `socket.send` fails once at most, and the connect handler sends a message. -/
def failsAt (n : Option Nat) : World where
  accepts k := n ≠ some k
  staysOpen _ := true
  connectHandler _ := [message 0x63]

/-- A run of the machine through events that are possible and meet a condition. -/
theorem run_events (w : World) (ok : State → Event → Bool) (es : List Event)
    (h : allOk (next w) (fun s e => possible s e && ok s e) {} es = true) :
    Run (Guard (machine w) fun s e => ok s e = true) {} (play (next w) (fun _ _ => []) {} es) (es.foldl (next w) {}) := by
  have hr : Run (Guard (moves w) fun s e => (possible s e && ok s e) = true) {}
      (play (next w) (fun _ _ => []) {} es) (es.foldl (next w) {}) :=
    run_guarded (next w) (fun _ _ => []) (fun _ _ => ⟨rfl, rfl⟩) h
  apply hr.mono
  rintro s e os t ⟨hstep, hok⟩
  rw [Bool.and_eq_true] at hok
  exact ⟨⟨hstep, hok.1⟩, hok.2⟩

/-- One message is sent before the first connection and one while it is lost. -/
def reconnecting : List Event :=
  [.start, .send (message 0x61), .opened, .closing, .send (message 0x62), .closed 1006, .reconnect, .opened]

theorem order_kept_at :
    let s := reconnecting.foldl (next (failsAt none)) {}
    (direct (accepted s.log ++ s.outbound)).map Line.text = [message 0x61, message 0x62] ∧
      (accepted s.log).map Line.text = [message 0x61, message 0x63, message 0x62] ∧ s.outbound = [] := by
  intro s
  have hr := run_events (failsAt none) findsQueueEmpty reconnecting (by decide)
  obtain ⟨horder, -, hdrained⟩ := order_kept hr
  refine ⟨horder.trans (by decide), by decide, ?_⟩
  rcases hdrained .opened (by decide) (by decide) (by decide) with hempty | hfailed
  · exact hempty
  · exact absurd hfailed (by decide)

/-- Of two messages that are sent on an open socket the first fails, and arrives after the second. -/
theorem failed_send_is_overtaken :
    ¬ ∀ (w : World) (h : Hist Event Unit) (s : State), Run (machine w) {} h s →
      (direct (accepted s.log ++ s.outbound)).map Line.text = (events h).filterMap Event.message := by
  intro hall
  have hr := run_events (failsAt (some 1)) (fun _ _ => true)
    [.start, .opened, .send (message 0x61), .send (message 0x62)] (by decide)
  exact absurd (hall _ _ _ hr.of_guard) (by decide)

end Leitwerk.Ipc.WorkerSocket
