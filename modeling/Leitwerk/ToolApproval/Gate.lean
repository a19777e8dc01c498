import Leitwerk.ToolApproval.Requests
import Leitwerk.Lib.Runs
/-!
# Tool calls that an operator approves

`packages/server/src/tool-approval-gate.ts` and `createIntegrationToolRequestService` of
`integration-tool-registry.ts`. A worker asks the server to execute a tool. A call of a ticket
tool first gets its destination, then waits until an operator has decided its request, and
only an accepted call reaches the tool's adapter. Every `await` of the source is a phase in
which other events come in between: commits of the engine, cancellations, other calls.
-/

namespace Leitwerk.ToolApproval

open JsonSyntax Engine Runs
open JsString (lit)

/-! ## Calls -/

/-- `TicketCreationDestinationSnapshot`. -/
structure Destination (ν : Type) where
  summary : JsonObject ν
  data : JsonTree ν
  agentContext : Option JsString

/-- A registered tool; a ticket tool's capability may have destinations. -/
inductive Tool where
  | plain
  | ticket (destinations : Bool)

/-- What the calls find on the server: the registered tools and what the definitions allow. -/
structure Registry (ν : Type) where
  numbers : Numbers ν
  tools : String → Option Tool
  /-- `resolveTurnIntegrationToolNames`. -/
  authorized : Store → TurnId → List String
  /-- The keys of the process's projects. -/
  projectKeys : Store → List JsString
  /-- Whether the process's params name a ticket destination. -/
  pinned : Store → Bool

/-- Whether a call of the tool waits for an operator. -/
def Registry.isTicket {ν : Type} (reg : Registry ν) (toolName : String) : Bool :=
  match reg.tools toolName with
  | some (.ticket _) => true
  | _ => false

/-- `WorkerIntegrationToolRequestPayload`. -/
structure Payload (ν : Type) where
  turnRecordId : String
  toolCallId : String
  toolName : String
  args : JsonObject ν

/-- Where a call awaits. -/
inductive Phase where
  /-- the adapter's answer about the destination -/
  | resolving
  /-- the decision of a request, in `waiters` -/
  | waiting (requestId : String)
  /-- `review` has its result -/
  | decided (decision : Decision)
  /-- `registry.execute` has not called the adapter yet -/
  | starting
  /-- the adapter's result -/
  | executing
  deriving DecidableEq

/-- A pending call of `handle`. -/
structure Call (ν : Type) where
  instanceId : String
  payload : Payload ν
  turnId : TurnId
  executionArgs : JsonObject ν
  ticketDestination : Option (Destination ν) := none
  /-- `signal.aborted`; its execution is aborted with it. -/
  aborted : Bool := false
  phase : Phase := .resolving

variable {ν : Type}

/-- `integrationToolIdempotencyKey`. -/
def integrationToolIdempotencyKey (instanceId turnRecordId toolCallId toolName : String) : String :=
  instanceId ++ ":" ++ turnRecordId ++ ":" ++ toolCallId ++ ":" ++ toolName

/-- What `review` is asked. -/
def Call.input (c : Call ν) : ReviewInput ν where
  instanceId := c.instanceId
  turnRecordId := c.payload.turnRecordId
  toolCallId := c.payload.toolCallId
  toolName := c.payload.toolName
  arguments := c.executionArgs
  destination := c.ticketDestination.map (·.summary)

/-- The result of a call. -/
inductive Answer (ν : Type) where
  | failed (error : JsString)
  /-- `operator_feedback` -/
  | feedback (text : String)
  | result (value : JsonTree ν)

/-! ## The server -/

/-- The rows of every process, the requests, and the pending calls under their keys. -/
structure Service (ν : Type) where
  stores : String → Option Store
  requests : Requests ν
  pending : Table String (Call ν)

def Service.init : Service ν := ⟨fun _ => none, .empty, .empty⟩

inductive Event (ν : Type)
  /-- A process is created. -/
  | create (instanceId : String) (st : Store)
  /-- An operation of the engine is committed. -/
  | record (instanceId now : String) (w : Writes)
  /-- `reconcile`: after a recorded operation, and after `resolve`. -/
  | reconcile (instanceId : String)
  | handle (instanceId : String) (payload : Payload ν) (newId now : String)
  /-- `validateTicketDestination` or `resolveTicketDestination` has an answer. -/
  | destination (key : String) (answer : Except JsString (Destination ν)) (newId now : String)
  /-- The transaction of `resolve`. -/
  | resolve (instanceId requestId : String) (decision : Decision) (actor : Json) (now : String)
  /-- A call goes on after `review`. -/
  | resume (key : String)
  /-- An execution starts. -/
  | begin (key : String)
  /-- An adapter has a result. -/
  | settle (key : String) (result : Except JsString (JsonTree ν))
  | cancel (instanceId turnRecordId toolCallId toolName now : String)
  /-- The server starts again on its database. -/
  | restart

inductive Out (ν : Type)
  /-- The adapter is called. -/
  | execute (input : ReviewInput ν) (destination : Option (Destination ν))
  | answer (instanceId turnRecordId toolCallId : String) (answer : Answer ν)

/-- `isCurrentTurn`. -/
def Service.isCurrentTurn (s : Service ν) (instanceId turnRecordId : String) : Bool :=
  (s.stores instanceId).any fun st =>
    st.process.lifecycleStatus = .active && ((st.turnRecords.get? turnRecordId).any fun turn =>
      turn.status = .running && st.process.selectedTurnId = some turn.turnId) &&
    st.currentTurnRecordId = some turnRecordId

/-- `isActive`. -/
def Service.isActive (s : Service ν) (c : Call ν) : Bool :=
  !c.aborted && (s.stores c.instanceId).any fun st =>
    runs st.turnRecords c.payload.turnRecordId && st.process.selectedTurnId = some c.turnId &&
    st.currentTurnRecordId = some c.payload.turnRecordId

/-- `assertActive`. -/
def Service.assertActive (s : Service ν) (c : Call ν) : Except String Unit :=
  if c.aborted then .error "Integration tool execution cancelled"
  else if s.isActive c then .ok ()
  else .error "Integration tool call targets a stale turn record"

/-- The project a call names. -/
def Payload.projectKey (p : Payload ν) : Option JsString :=
  match p.args.fields.lookup (lit "projectKey") with
  | some (.str key) => if key = [] then none else some key
  | _ => none

/-- The error of a project the process does not have. -/
def unknownProject (key : JsString) (keys : List JsString) : JsString :=
  lit "Unknown process project '" ++ key ++ lit "'. Available project keys: " ++
    (if keys = [] then lit "(none)" else (lit ", ").intercalate keys)

/-- What `handle` checks first; the turn of the record and whether the destination is pinned. -/
def Service.check (reg : Registry ν) (s : Service ν) (instanceId : String) (p : Payload ν) : Except JsString (TurnId × Bool) :=
  match s.stores instanceId with
  | none => .error (lit "Integration tool call does not belong to the active running turn")
  | some st =>
    match st.turnRecords.get? p.turnRecordId with
    | none => .error (lit "Integration tool call does not belong to the active running turn")
    | some turn =>
      if turn.status ≠ .running then .error (lit "Integration tool call does not belong to the active running turn")
      else if st.currentTurnRecordId ≠ some p.turnRecordId then .error (lit "Integration tool call targets a stale turn record")
      else if st.process.selectedTurnId ≠ some turn.turnId then .error (lit "Integration tool call targets a stale turn")
      else if p.toolName ∉ reg.authorized st turn.turnId then
        .error (lit ("Integration tool '" ++ p.toolName ++ "' is not authorized for this turn"))
      else match p.projectKey.filter (· ∉ reg.projectKeys st) with
        | some key => .error (unknownProject key (reg.projectKeys st))
        | none => .ok (turn.turnId, reg.pinned st)

def Service.put (s : Service ν) (key : String) (c : Call ν) : Service ν := { s with pending := s.pending.put key c }

/-- A call has its result and is no longer pending. -/
def Service.finish (s : Service ν) (key : String) (c : Call ν) (answer : Answer ν) : Service ν × List (Out ν) :=
  ({ s with pending := s.pending.remove key }, [.answer c.instanceId c.payload.turnRecordId c.payload.toolCallId answer])

/-- `registry.execute`, unless the call is no longer active. -/
def Service.execute (reg : Registry ν) (s : Service ν) (key : String) (c : Call ν) : Service ν × List (Out ν) :=
  match s.assertActive c with
  | .error e => s.finish key c (.failed (lit e))
  | .ok () => match reg.tools c.payload.toolName with
    | none => s.finish key c (.failed (lit ("Unknown integration tool '" ++ c.payload.toolName ++ "'")))
    | some _ => (s.put key { c with phase := .starting }, [])

/-- A ticket tool whose destination is known: `review`, up to its `await`. -/
def Service.review (reg : Registry ν) (s : Service ν) (newId now key : String) (c : Call ν) : Service ν × List (Out ν) :=
  match s.assertActive c with
  | .error e => s.finish key c (.failed (lit e))
  | .ok () =>
    if s.isCurrentTurn c.instanceId c.payload.turnRecordId then
      match createIdempotent reg.numbers s.requests newId now c.input with
      | .error e => s.finish key c (.failed (lit e))
      | .ok (rows, id, request) =>
        let phase := match request.decision with
          | some decision => Phase.decided decision
          | none => .waiting id
        (({ s with requests := rows } : Service ν).put key { c with phase }, [])
    else (s.put key { c with phase := .decided .declined }, [])

/-- The destination a model selects. -/
def Payload.destinationId (p : Payload ν) : Option JsString :=
  match p.args.fields.lookup (lit "destinationId") with
  | some (.str id) => if id.trim = [] then none else some id
  | _ => none

/-- `handle`, up to its first `await`. -/
def Service.handle (reg : Registry ν) (s : Service ν) (instanceId : String) (p : Payload ν) (newId now : String) :
    Service ν × List (Out ν) :=
  let key := integrationToolIdempotencyKey instanceId p.turnRecordId p.toolCallId p.toolName
  match s.pending.get? key with
  | some _ => (s, [])
  | none =>
    let refuse (e : JsString) := (s, [Out.answer instanceId p.turnRecordId p.toolCallId (.failed e)])
    match s.check reg instanceId p with
    | .error e => refuse e
    | .ok (turnId, pinned) =>
      let c : Call ν := ⟨instanceId, p, turnId, p.args, none, false, .resolving⟩
      match reg.tools p.toolName with
      | some (.ticket false) => s.review reg newId now key c
      | some (.ticket true) =>
        if pinned then (s.put key c, [])
        else if p.destinationId = none then refuse (lit "A ticket destination is required")
        else (s.put key { c with executionArgs := p.args.without (lit "destinationId") }, [])
      | _ => s.execute reg key c

/-- The rows `list` finds: those of an instance, or all without one. -/
def listed (instanceId rowInstanceId : String) : Bool := instanceId = "" || rowInstanceId = instanceId

/-- A waiting call, once the requests of an instance are reconciled. -/
def Call.reconciled (rows : Requests ν) (instanceId : String) (c : Call ν) : Call ν :=
  match c.phase with
  | .waiting id =>
    match (rows.get? id).filter fun r => listed instanceId r.instanceId with
    | some r => match r.decision with
      | some decision => { c with phase := .decided decision }
      | none => c
    | none => c
  | _ => c

def Service.reconcile (s : Service ν) (instanceId : String) : Service ν :=
  { s with pending := s.pending.map (·.reconciled s.requests instanceId) }

/-- The transaction of `resolve`. -/
def Service.resolve (s : Service ν) (instanceId requestId : String) (decision : Decision) (actor : Json) (now : String) :
    Service ν :=
  match (s.requests.get? requestId).filter fun r => listed instanceId r.instanceId && r.status = .opened with
  | none => s
  | some request =>
    if s.isCurrentTurn request.instanceId request.turnRecordId then
      match resolveRow s.requests requestId decision actor now with
      | .ok rows => { s with requests := rows }
      | .error _ => s
    else { s with requests := cancelOpenByTurn s.requests instanceId request.turnRecordId now }

/-- What a call does with its decision. -/
def Service.resume (reg : Registry ν) (s : Service ν) (key : String) (c : Call ν) : Decision → Service ν × List (Out ν)
  | .feedback text => s.finish key c (.feedback text)
  | .declined => s.finish key c (.failed (lit "Ticket creation was declined by the operator"))
  | .accepted => s.execute reg key c

/-- The call under a key in a phase. -/
def Service.at (s : Service ν) (key : String) (phase : Phase) : Option (Call ν) := (s.pending.get? key).filter (·.phase = phase)

/-- What an event does. -/
def Service.next (reg : Registry ν) (s : Service ν) : Event ν → Service ν × List (Out ν)
  | .create instanceId st =>
    if s.stores instanceId = none then ({ s with stores := Function.update s.stores instanceId (some st) }, []) else (s, [])
  | .record instanceId now w =>
    match s.stores instanceId with
    | none => (s, [])
    | some st => match commitWrites now st w with
      | none => (s, [])
      | some st' =>
        ({ s with
           stores := Function.update s.stores instanceId (some st')
           requests := settleRequests instanceId now st.turnRecords w.turnRecordWrites s.requests }, [])
  | .reconcile instanceId => (s.reconcile instanceId, [])
  | .handle instanceId payload newId now => s.handle reg instanceId payload newId now
  | .destination key answer newId now =>
    match s.at key .resolving, answer with
    | none, _ => (s, [])
    | some c, .error e => s.finish key c (.failed e)
    | some c, .ok destination => s.review reg newId now key { c with ticketDestination := some destination }
  | .resolve instanceId requestId decision actor now => (s.resolve instanceId requestId decision actor now, [])
  | .resume key =>
    match s.pending.get? key with
    | none => (s, [])
    | some c => match c.phase with
      | .decided decision => s.resume reg key c decision
      | _ => (s, [])
  | .begin key =>
    match s.at key .starting with
    | none => (s, [])
    | some c =>
      if c.aborted then s.finish key c (.failed (lit "Integration tool execution cancelled"))
      else (s.put key { c with phase := .executing }, [.execute c.input c.ticketDestination])
  | .settle key result =>
    match s.at key .executing with
    | none => (s, [])
    | some c => match result with
      | .error e => s.finish key c (.failed e)
      | .ok value => match s.assertActive c with
        | .error e => s.finish key c (.failed (lit e))
        | .ok () => s.finish key c (.result value)
  | .cancel instanceId turnRecordId toolCallId toolName now =>
    let key := integrationToolIdempotencyKey instanceId turnRecordId toolCallId toolName
    (Service.reconcile
      { s with
        pending := s.pending.modify key fun c => { c with aborted := true }
        requests := cancelOpenByTurn s.requests instanceId turnRecordId now } instanceId, [])
  | .restart => ({ s with pending := .empty }, [])

/-- Whether an event may decide or cancel requests of an instance. -/
def Event.decides (e : Event ν) (instanceId : String) : Bool :=
  match e with
  | .record i .. => instanceId = i
  | .resolve i .. => listed i instanceId
  | _ => false

/-- Whether an event tells the calls of an instance what was decided. -/
def Event.reconciles (e : Event ν) (instanceId : String) : Bool :=
  match e with
  | .reconcile i | .cancel i .. => listed i instanceId
  | _ => false

/-- A step of the server. -/
def ServiceStep (reg : Registry ν) : Step (Service ν) (Event ν) (Out ν) := fun s e os t => s.next reg e = (t, os)

/-! ## A call that is approved -/

/-- One ticket tool, for every turn. -/
def demoRegistry : Registry (Fin 10) where
  numbers := digitNumbers
  tools name := if name = "create_issue" then some (.ticket false) else none
  authorized _ _ := ["create_issue"]
  projectKeys _ := []
  pinned _ := false

/-- The process builds: its record runs. -/
def demoStore : Store where
  process := { id := "agt", lifecycleStatus := .active, selectedTurnId := some "build", currentExecution := some "tsr" }
  turnStarts := Table.empty.put "tsr"
    { id := "tsr", turnId := "build", turnType := .automatic, proposedTurnRecordId := "trn", startKind := .selectedTurn
      recoveryTurnRecordId := none, continuation := none, state := .accepted .automatic "trn" "lease" }
  turnRecords := Table.empty.put "trn"
    { id := "trn", turnId := "build", turnType := .automatic, status := .running, startedAt := "0" }

def demoPayload : Payload (Fin 10) where
  turnRecordId := "trn"
  toolCallId := "call"
  toolName := "create_issue"
  args := ⟨[], .obj List.nodup_nil (by simp), rfl⟩

def demoKey : String := integrationToolIdempotencyKey "agt" "trn" "call" "create_issue"

/-- An operator accepts the request of a call. -/
def demoResolved : List (Event (Fin 10)) :=
  [.create "agt" demoStore, .handle "agt" demoPayload "tap" "1", .resolve "agt" "tap" .accepted "operator" "2"]

/-- The call goes on up to its execution. -/
def demoResumed : List (Event (Fin 10)) := demoResolved ++ [.reconcile "agt", .resume demoKey]

/-- The server after events. -/
def Service.after (s : Service (Fin 10)) (es : List (Event (Fin 10))) : Service (Fin 10) :=
  es.foldl (fun s e => (s.next demoRegistry e).1) s

/-- The history of the events. -/
def Service.history (s : Service (Fin 10)) (es : List (Event (Fin 10))) : Hist (Event (Fin 10)) (Out (Fin 10)) :=
  play (fun s e => (s.next demoRegistry e).1) (fun s e => (s.next demoRegistry e).2) s es

theorem run_demo (s : Service (Fin 10)) (es : List (Event (Fin 10))) : Run (ServiceStep demoRegistry) s (s.history es) (s.after es) := by
  have hstep : ∀ s e, ServiceStep demoRegistry s e (s.next demoRegistry e).2 (s.next demoRegistry e).1 := fun _ _ => rfl
  exact run_play _ _ hstep _ _

def demoCall : Call (Fin 10) where
  instanceId := "agt"
  payload := demoPayload
  turnId := "build"
  executionArgs := demoPayload.args

def demoInput : ReviewInput (Fin 10) := demoCall.input

/-- The request of the call. -/
def demoRequest : Request (Fin 10) := { demoInput with requestedAt := "1" }

/-- The request of the call, once it is decided. -/
def demoAccepted : Request (Fin 10) := demoRequest.resolved .accepted "operator" "2"

end Leitwerk.ToolApproval
