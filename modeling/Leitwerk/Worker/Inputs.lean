import Leitwerk.Worker.Types
/-!
# The input queue and its delivery to Pi

The queue policy of `lifecycle-reducer.ts` (`decideWorkerInputEffect`,
`enqueueInputs`) and `packages/worker/src/input-consumer.ts`, which passes a
batch to the Pi session one input at a time.
-/

namespace Leitwerk.Worker

/-! ## What to do with the head of the queue -/

/-- `WorkerInputEffect`. -/
inductive InputEffect where
  | none
  | blocked
  | deliver (inputs : List InputItem)
  | consumeIgnored (inputs : List InputItem)
  | startTurn (inputs : List InputItem)
  deriving DecidableEq

/-- An input addressed to the turn's starting point, not to the running session. -/
def InputItem.targeted (item : InputItem) : Bool := item.target.isSome

/-- `decideWorkerInputEffect`: the queue is a FIFO in which targeted inputs are
barriers for ordinary ones. -/
def decideWorkerInputEffect (items : List InputItem) (sessionTainted piAvailable mayStartTurn : Bool) :
    InputEffect :=
  match items with
  | [] => if mayStartTurn && !sessionTainted then .startTurn [] else .none
  | head :: _ =>
    if sessionTainted then .blocked
    else if head.targeted then
      if mayStartTurn then .startTurn (items.takeWhile (·.targeted)) else .none
    else
      let ordinary := items.takeWhile (!·.targeted)
      if piAvailable then .deliver ordinary else .consumeIgnored ordinary

/-! ## Queueing -/

/-- `byId.set(item.inputId, item)` on the values of a map in insertion order. -/
def setById (items : List InputItem) (item : InputItem) : List InputItem :=
  if items.any (·.inputId == item.inputId) then
    items.map fun i => if i.inputId == item.inputId then item else i
  else items ++ [item]

/-- Insertion that keeps equal sequences in their order. -/
def insertBySequence (item : InputItem) : List InputItem → List InputItem
  | [] => [item]
  | head :: rest =>
    if item.sequence < head.sequence then item :: head :: rest else head :: insertBySequence item rest

/-- The stable sort by sequence. -/
def sortBySequence (items : List InputItem) : List InputItem :=
  items.foldl (fun sorted item => insertBySequence item sorted) []

/-- `enqueueInputs`. -/
def enqueueInputs (current incoming : List InputItem) : List InputItem :=
  sortBySequence (incoming.foldl setById (current.foldl setById []))

/-! ## Delivery -/

/-- `classifyDeliveryMode`. -/
def classifyDeliveryMode (input : InputItem) (sessionHasActiveTurn : Bool) : InputDeliveryMode :=
  if input.kind == "system_event" || sessionHasActiveTurn then .steer else .prompt

/-- One call of `session.prompt` or `session.steer`. -/
structure PiCall where
  input : InputItem
  mode : InputDeliveryMode
  deriving DecidableEq

/-- How the call for the input at a position of the batch ends. -/
abbrev PiSession := Nat → Except Thrown Unit

/-- What `deliverBatch` did: the calls it made and its result. -/
structure BatchDelivery where
  calls : List PiCall
  result : Except Thrown (List DeliveredInput)

/-- The loop of `deliverBatch` from position `i`. -/
def deliverFrom (session : PiSession) (hasActiveTurn : Bool) : Nat → List InputItem → BatchDelivery
  | _, [] => ⟨[], .ok []⟩
  | i, input :: rest =>
    let mode := if i = 0 then classifyDeliveryMode input hasActiveTurn else .steer
    match session i with
    | .error e => ⟨[⟨input, mode⟩], .error e⟩
    | .ok () =>
      let later := deliverFrom session hasActiveTurn (i + 1) rest
      ⟨⟨input, mode⟩ :: later.calls,
        later.result.map fun out => ⟨input.inputId, input.sequence, mode⟩ :: out⟩

/-- `deliverBatch`. -/
def deliverBatch (session : PiSession) (inputs : List InputItem) (hasActiveTurn : Bool) : BatchDelivery :=
  deliverFrom session hasActiveTurn 0 inputs

end Leitwerk.Worker
