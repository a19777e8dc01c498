import Leitwerk.Lib.JsString
import Leitwerk.Lib.Runs
/-!
# The server's end of the connections

`createWorkerWebSocketIpcManager`: a registered worker has an entry, to which at
most one socket is bound; what is sent before the socket has authenticated, or
after it is lost, waits in the entry. Entries and sockets are objects that the
closures of the manager keep, so both have an identity here and stay after the
entry is no longer registered. What a socket does and which workers the supervisor
stops while it is told of an error is up to a `World`.
-/

namespace Leitwerk.Ipc.ServerSocket

open Runs
open JsString (lit)

/-- `connectionKey`. -/
def connectionKey (instanceId workerId : JsString) : JsString := instanceId ++ lit ":" ++ workerId

/-- `PendingWorkerConnection`. The timer is that of a socket. -/
structure Entry where
  key : JsString := []
  tokenHash : JsString := []
  socket : Option Nat := none
  socketAuthenticated : Bool := false
  authTimer : Option Nat := none
  outbound : List JsString := []

/-- A socket, whether its `readyState` is 1, and the entry it was bound to. -/
structure Socket where
  entry : Nat := 0
  isOpen : Bool := false

/-- What happened so far, by the entries and sockets it happened to. -/
inductive Record
  | sent (entry : Nat) (data : JsString)
  | wrote (entry socket : Nat) (data : JsString)
  | authenticated (entry socket : Nat)
  | delivered (entry socket : Nat) (text : JsString)
  | invalidOutput (entry : Nat)
  | runtimeError (entry : Nat)
  | overflow (entry : Nat)
  | unregistered (entry : Nat)
  | refused (code : Nat)
  deriving DecidableEq

structure State where
  pending : JsString → Option Nat := fun _ => none
  retryUnknownWorkerConnections : Bool := false
  entries : Nat → Entry := fun _ => {}
  entryCount : Nat := 0
  sockets : Nat → Socket := fun _ => {}
  socketCount : Nat := 0
  timers : List (Nat × Nat) := []
  calls : Nat := 0
  log : List Record := []

/-- The surroundings: whether the n-th call of a socket returns or throws and leaves
it open, which workers the supervisor unregisters when it is told of an error
then (it sends nothing before it returns), which tokens fit a hash and which texts
are messages. -/
structure World where
  returns : Nat → Bool
  staysOpen : Nat → Bool
  stops : Nat → List JsString
  verifyWorkerConnectToken : JsString → JsString → Bool
  deserializes : JsString → Bool
  maxBufferedMessages : Nat

def State.setEntry (s : State) (e : Nat) (f : Entry → Entry) : State :=
  { s with entries := Function.update s.entries e (f (s.entries e)) }

def State.setSocket (s : State) (k : Nat) (socket : Socket) : State :=
  { s with sockets := Function.update s.sockets k socket }

def State.record (s : State) (r : Record) : State := { s with log := s.log ++ [r] }

section
variable (s : State) (e k : Nat) (f : Entry → Entry) (socket : Socket) (r : Record)

@[simp] theorem entries_setEntry_self : (s.setEntry e f).entries e = f (s.entries e) := Function.update_self ..

theorem entries_setEntry_ne {e' : Nat} (h : e' ≠ e) : (s.setEntry e f).entries e' = s.entries e' :=
  Function.update_of_ne h ..

@[simp] theorem pending_setEntry : (s.setEntry e f).pending = s.pending := rfl

@[simp] theorem sockets_setEntry : (s.setEntry e f).sockets = s.sockets := rfl

@[simp] theorem log_setEntry : (s.setEntry e f).log = s.log := rfl

@[simp] theorem entryCount_setEntry : (s.setEntry e f).entryCount = s.entryCount := rfl

@[simp] theorem socketCount_setEntry : (s.setEntry e f).socketCount = s.socketCount := rfl

@[simp] theorem sockets_setSocket_self : (s.setSocket k socket).sockets k = socket := Function.update_self ..

theorem sockets_setSocket_ne {k' : Nat} (h : k' ≠ k) : (s.setSocket k socket).sockets k' = s.sockets k' :=
  Function.update_of_ne h ..

@[simp] theorem entries_record : (s.record r).entries = s.entries := rfl

@[simp] theorem pending_record : (s.record r).pending = s.pending := rfl

@[simp] theorem sockets_record : (s.record r).sockets = s.sockets := rfl

@[simp] theorem log_record : (s.record r).log = s.log ++ [r] := rfl

@[simp] theorem entryCount_record : (s.record r).entryCount = s.entryCount := rfl

@[simp] theorem socketCount_record : (s.record r).socketCount = s.socketCount := rfl

end

/-! ## Closing -/

/-- `clearAuthTimer`. -/
def clearAuthTimer (s : State) (e : Nat) : State :=
  match (s.entries e).authTimer with
  | none => s
  | some k => { s.setEntry e ({ · with authTimer := none }) with timers := s.timers.erase (e, k) }

/-- A call of `socket.close`, after which the socket is not open. -/
def shut (s : State) (k : Nat) : State := { s.setSocket k { s.sockets k with isOpen := false } with calls := s.calls + 1 }

/-- `unregister`, which ignores that `close` throws. -/
def unregister (s : State) (key : JsString) : State :=
  match s.pending key with
  | none => s
  | some e =>
    let socket := (s.entries e).socket
    let s := { s with pending := Function.update s.pending key none }
    let s := (s.setEntry e ({ · with socket := none, socketAuthenticated := false, outbound := [] })).record (.unregistered e)
    match socket with
    | none => s
    | some k => shut s k

/-- A callback, in which the supervisor may stop workers. -/
def callback (w : World) (s : State) (r : Record) : State :=
  (w.stops s.calls).foldl unregister { s.record r with calls := s.calls + 1 }

/-- `reportRuntimeError`. -/
def reportRuntimeError (w : World) (s : State) (e : Nat) : State := callback w s (.runtimeError e)

/-- What `closeSocket` and the handler of the close do to the entry whose socket it is. -/
def unbind (s : State) (e k : Nat) : State :=
  if (s.entries e).socket = some k then
    (clearAuthTimer s e).setEntry e ({ · with socket := none, socketAuthenticated := false })
  else s

/-- `closeSocket`. -/
def closeSocket (w : World) (s : State) (e k : Nat) : State :=
  let s := unbind s e k
  if w.returns s.calls then shut s k else reportRuntimeError w (shut s k) e

/-! ## Sending -/

/-- A call of `socket.send`, after which the socket is open or not. -/
def afterSend (s : State) (k : Nat) (isOpen : Bool) : State :=
  { s.setSocket k { s.sockets k with isOpen } with calls := s.calls + 1 }

/-- `sendNow`. -/
def sendNow (w : World) (s : State) (e k : Nat) (data : JsString) : State × Bool :=
  if (s.sockets k).isOpen = false then (s, false)
  else
    let called := afterSend s k (w.staysOpen s.calls)
    if w.returns s.calls then (called.record (.wrote e k data), true)
    else (closeSocket w (reportRuntimeError w called e) e k, false)

/-- `queueOutbound`. -/
def queueOutbound (w : World) (s : State) (e : Nat) (data : JsString) : State :=
  if w.maxBufferedMessages ≤ (s.entries e).outbound.length then
    let s := reportRuntimeError w ((s.setEntry e ({ · with outbound := [] })).record (.overflow e)) e
    match (s.entries e).socket with
    | none => s
    | some k => closeSocket w s e k
  else s.setEntry e fun entry => { entry with outbound := entry.outbound ++ [data] }

/-- `flushOutbound`. Each round shifts one message, so as many rounds as there are
messages are enough. -/
def flushOutbound (w : World) (e k : Nat) : Nat → State → State
  | 0, s => s
  | rounds + 1, s =>
    match (s.entries e).outbound with
    | [] => s
    | data :: _ =>
      match sendNow w s e k data with
      | (s, false) => s
      | (s, true) => flushOutbound w e k rounds (s.setEntry e fun entry => { entry with outbound := entry.outbound.tail })

/-- `send`. -/
def send (w : World) (s : State) (key data : JsString) : State :=
  match s.pending key with
  | none => s
  | some e =>
    let s := s.record (.sent e data)
    match (s.entries e).socket with
    | none => queueOutbound w s e data
    | some k =>
      if (s.entries e).socketAuthenticated = false then queueOutbound w s e data
      else
        match sendNow w s e k data with
        | (s, true) => s
        | (s, false) =>
          let s := if (s.entries e).socket = some k then closeSocket w s e k else s
          queueOutbound w s e data

/-! ## Registering and binding -/

/-- `registerWorker`. -/
def registerWorker (s : State) (key tokenHash : JsString) : State :=
  { s with
    pending := Function.update s.pending key (some s.entryCount)
    entries := Function.update s.entries s.entryCount { key, tokenHash }
    entryCount := s.entryCount + 1 }

/-- The part of `bindSocket` that binds a new socket to the entry. -/
def attach (s : State) (e : Nat) (isOpen : Bool) : State :=
  let k := s.socketCount
  let s := { s.setSocket k { entry := e, isOpen } with socketCount := k + 1, timers := (e, k) :: s.timers }
  s.setEntry e ({ · with socket := some k, socketAuthenticated := false, authTimer := some k })

/-- `bindSocket`, of a socket that is open or already is not. -/
def bindSocket (w : World) (s : State) (key : JsString) (isOpen : Bool) : State :=
  match s.pending key with
  | none => s.record (.refused (if s.retryUnknownWorkerConnections then 1013 else 1008))
  | some e =>
    match (s.entries e).socket with
    | none => attach s e isOpen
    | some old =>
      if (s.entries e).socketAuthenticated then s.record (.refused 1008)
      else attach (closeSocket w s e old) e isOpen

/-! ## Events of a socket -/

/-- `deliverIpcText`, up to what the callback does. -/
def deliverIpcText (w : World) (s : State) (e k : Nat) (text : JsString) : State :=
  if w.deserializes text = false then closeSocket w (callback w s (.invalidOutput e)) e k
  else s.record (.delivered e k text)

/-- The handler of a message. -/
def onMessage (w : World) (s : State) (k : Nat) (text : JsString) : State :=
  let e := (s.sockets k).entry
  if (s.entries e).socket ≠ some k then s
  else if (s.entries e).socketAuthenticated then deliverIpcText w s e k text
  else if w.verifyWorkerConnectToken text (s.entries e).tokenHash = false then closeSocket w s e k
  else
    let s := ((clearAuthTimer s e).setEntry e ({ · with socketAuthenticated := true })).record (.authenticated e k)
    flushOutbound w e k (s.entries e).outbound.length s

/-- The handler of an error. -/
def onError (w : World) (s : State) (k : Nat) : State :=
  let e := (s.sockets k).entry
  if (s.entries e).socket = some k ∧ (s.entries e).socketAuthenticated then reportRuntimeError w s e else s

/-- The handler of the close. -/
def onClose (s : State) (k : Nat) : State := unbind s (s.sockets k).entry k

/-- The timer of `bindSocket`. -/
def onAuthTimeout (w : World) (s : State) (e k : Nat) : State :=
  let s := { s with timers := s.timers.erase (e, k) }
  if (s.entries e).socket = some k ∧ (s.entries e).socketAuthenticated = false then closeSocket w s e k else s

/-- The calls of the manager and what its sockets and timers do. What the callback
of a delivered message does are the events that follow, and that it throws is
one. -/
inductive Event
  | setUnknownWorkerConnectionsRetryable (enabled : Bool)
  | registerWorker (instanceId workerId tokenHash : JsString)
  | bindSocket (instanceId workerId : JsString) (isOpen : Bool)
  | send (instanceId workerId data : JsString)
  | unregister (instanceId workerId : JsString)
  | message (socket : Nat) (text : JsString)
  | deliveryFailed (socket : Nat)
  | error (socket : Nat)
  | notOpen (socket : Nat)
  | close (socket : Nat)
  | authTimeout (entry socket : Nat)
  deriving DecidableEq

def next (w : World) (s : State) : Event → State
  | .setUnknownWorkerConnectionsRetryable enabled => { s with retryUnknownWorkerConnections := enabled }
  | .registerWorker instanceId workerId tokenHash => registerWorker s (connectionKey instanceId workerId) tokenHash
  | .bindSocket instanceId workerId isOpen => bindSocket w s (connectionKey instanceId workerId) isOpen
  | .send instanceId workerId data => send w s (connectionKey instanceId workerId) data
  | .unregister instanceId workerId => unregister s (connectionKey instanceId workerId)
  | .message k text => onMessage w s k text
  | .deliveryFailed k => closeSocket w (reportRuntimeError w s (s.sockets k).entry) (s.sockets k).entry k
  | .error k => onError w s k
  | .notOpen k => s.setSocket k { s.sockets k with isOpen := false }
  | .close k => onClose (s.setSocket k { s.sockets k with isOpen := false }) k
  | .authTimeout e k => onAuthTimeout w s e k

/-- A socket has events once it was bound, and a timer fires if it was not cleared. -/
def possible (s : State) : Event → Bool
  | .message k _ => k < s.socketCount
  | .deliveryFailed k => k < s.socketCount
  | .error k => k < s.socketCount
  | .notOpen k => k < s.socketCount
  | .close k => k < s.socketCount
  | .authTimeout e k => (e, k) ∈ s.timers
  | _ => true

/-- A worker is registered once. -/
def registersOnce (s : State) : Event → Bool
  | .registerWorker instanceId workerId _ => ∀ e < s.entryCount, (s.entries e).key ≠ connectionKey instanceId workerId
  | _ => true

def moves (w : World) : Step State Event Unit := fun s e os t => os = [] ∧ t = next w s e

/-- The connections of workers that are registered once. -/
def machine (w : World) : Step State Event Unit := Guard (moves w) fun s e => (possible s e && registersOnce s e) = true

end Leitwerk.Ipc.ServerSocket
